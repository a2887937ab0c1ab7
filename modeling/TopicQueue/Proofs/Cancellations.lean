import TopicQueue.Proofs.Offers

namespace TopicQueue

/-- The message that a topic has to give, if it has one and nobody has claimed it. -/
def Store.available? (s : Store) (topic : String) : Option Bytes :=
  match s.fetchNext topic with
  | .ok (payload?, _) => payload?
  | .error _ => none

/-- What is still told of somebody who withdraws from a topic: nothing that it was given, read, said
or settled but by putting it back, and no errand to the store except with what it held. -/
def Note.isWithdrawal (topic : String) (held : Bool) : Note → Bool
  | .stored .. | .claimed .. | .committed .. | .took .. | .wrote .. => false
  | .called call t _ => held && call = .requeue && t = topic
  | _ => true

namespace Store

variable {s s' : Store} {topic t : String} {payload : Bytes}

theorem available?_eq_some :
    s.available? topic = some payload ↔ ∃ s', s.fetchNext topic = .ok (some payload, s') := by
  unfold available?
  cases h : s.fetchNext topic with
  | error e => simp
  | ok r =>
    obtain ⟨payload?, s'⟩ := r
    simp

/-- What a topic has to give is a matter of that topic alone. -/
theorem available?_congr (ho : s'.closed = s.closed) (ht : s'.tree topic = s.tree topic)
    (hc : s'.claim? topic = s.claim? topic) : s'.available? topic = s.available? topic := by
  simp only [available?, fetchNext, ho, ht, hc]
  cases s.closed with
  | true => rfl
  | false =>
    cases s.claim? topic with
    | some key => rfl
    | none =>
      cases (s.tree topic).first? with
      | none => rfl
      | some entry =>
        dsimp only [Bool.false_eq_true, if_false]
        cases StoredEntry.decode entry.2 <;> rfl

/-- What goes back was not available before, and takes nothing away that is. -/
theorem requeue_available (h : s.requeue topic = .ok s') (ha : s.available? t = some payload) :
    s'.available? t = some payload := by
  obtain ⟨s₁, hf⟩ := available?_eq_some.mp ha
  obtain ⟨-, hfree, -⟩ := fetchNext_some hf
  obtain ⟨-, key, hclaimed, he⟩ := requeue_ok h
  have hne : t ≠ topic := by
    rintro rfl
    rw [hclaimed] at hfree
    cases hfree
  obtain ⟨htree, hclaim⟩ := requeue_other h hne
  rw [available?_congr (by rw [he]; rfl) htree hclaim, ha]

end Store

namespace Broker

/-- Somebody has withdrawn from a topic. -/
structure Withdrawn (topic : String) (held : Bool) (b b' : Broker) : Prop where
  told : ∃ new : History, b'.notes = new ++ b.notes ∧
    ∀ n ∈ new, n.isWithdrawal topic held = true
  /-- No entry has come or gone. -/
  trees : ∀ t, b'.store.tree t = b.store.tree t
  /-- What could be had can still be had. -/
  available : ∀ t payload, b.store.available? t = some payload →
    b'.store.available? t = some payload

/-- The next who asks for a message of a topic gets this one, unless the store is made to fail. -/
structure Deliverable (b : Broker) (topic : String) (payload : Bytes) : Prop where
  available : b.store.available? topic = some payload
  given : ∀ id c, b.consumer? id = some c → c.topic = topic → c.holding = false →
    c.cancelled = false → (b.faults.trip .fetchNext).1 = none → (b.begin id).1 = some (.ok payload)

/-- What has become of the cancelled call of a consumer that stood as `c`. -/
structure Recalled (id : ConsumerId) (c : Consumer) (b b' : Broker) : Prop where
  answer : b'.notes.head? = some (.returned id (.error .cancelled))
  /-- The flag is down, and there is neither a call nor a message. -/
  consumer : ∃ d, b'.consumer? id = some d ∧ d.topic = c.topic ∧ d.waiting = false ∧
    d.wait = .idle ∧ d.holding = false
  /-- The store has not been called at all. -/
  withdrawn : Withdrawn c.topic false b b'
  store : b'.store = b.store
  deliverable : ∀ topic payload, b.store.available? topic = some payload →
    Deliverable b' topic payload

variable {b b' b'' : Broker} {id : ConsumerId} {c : Consumer} {topic : String}
  {held held' : Bool} {n : Note} {payload : Bytes}

theorem Withdrawn.same (hn : b'.notes = b.notes) (hs : b'.store = b.store) :
    Withdrawn topic held b b' :=
  ⟨⟨[], hn, by simp⟩, fun t => by rw [hs], fun t payload ha => by rw [hs, ha]⟩

theorem Withdrawn.trans (h : Withdrawn topic held b b') (h' : Withdrawn topic held b' b'') :
    Withdrawn topic held b b'' := by
  obtain ⟨new, he, hn⟩ := h.told
  obtain ⟨new', he', hn'⟩ := h'.told
  refine ⟨⟨new' ++ new, by rw [he', he, List.append_assoc], ?_⟩,
    fun t => (h'.trees t).trans (h.trees t),
    fun t payload ha => h'.available t payload (h.available t payload ha)⟩
  intro n hm
  rcases List.mem_append.mp hm with hm | hm
  · exact hn' n hm
  · exact hn n hm

theorem withdrawn_note (hn : n.isWithdrawal topic held = true) (b : Broker) :
    Withdrawn topic held b (b.note n) :=
  ⟨⟨[n], rfl, by simpa using hn⟩, fun _ => rfl, fun _ _ ha => ha⟩

/-- Who holds a message may do what one does that holds none. -/
theorem Withdrawn.mono (h : Withdrawn topic held b b') (hle : held = true → held' = true) :
    Withdrawn topic held' b b' := by
  obtain ⟨new, he, hn⟩ := h.told
  refine ⟨⟨new, he, fun n hm => ?_⟩, h.trees, h.available⟩
  have hnote := hn n hm
  cases held with
  | true => rwa [hle rfl]
  | false =>
    cases n with
    | called => cases hnote
    | stored | claimed | committed | took | wrote => cases hnote
    | _ => rfl

theorem withdrawn_wake (b : Broker) (id : ConsumerId) : Withdrawn topic held b (b.wake id) := by
  unfold wake
  split
  · exact .same rfl rfl
  · split
    · unfold enqueue
      split <;> exact .same rfl rfl
    · exact .same rfl rfl

theorem withdrawn_notify (b : Broker) (t : String) (reason : WakeReason) :
    Withdrawn topic held b (b.notify t reason) := by
  unfold notify
  split
  · exact withdrawn_note rfl b
  · split
    · exact withdrawn_note rfl b
    · exact (withdrawn_wake b _).trans (withdrawn_note rfl _)

theorem withdrawn_leave (b : Broker) (id : ConsumerId) : Withdrawn topic held b (b.leave id) := by
  unfold leave
  split
  · exact .same rfl rfl
  · rename_i c _
    have hset : Withdrawn topic held b
        (b.setConsumer id { c with waiting := false, wait := .idle }) := .same rfl rfl
    dsimp only
    split
    · exact hset
    · exact hset.trans (withdrawn_notify _ c.topic .handoff)

theorem withdrawn_forget (b : Broker) (id : ConsumerId) (t : String) :
    Withdrawn topic held b (b.forget id t) :=
  ⟨⟨[.deregistered id t], rfl, by simp [Note.isWithdrawal]⟩, fun _ => rfl, fun _ _ ha => ha⟩

/-- Putting back what it holds, if it holds anything. -/
theorem withdrawn_nack (hc : b.consumer? id = some c) :
    Withdrawn c.topic c.holding b (b.settle id .nack).2 := by
  cases hh : c.holding with
  | false =>
    rw [settle_idle hc hh]
    exact .same rfl rfl
  | true =>
    rcases settle_cases hc hh .nack with ⟨e, f, he⟩ | ⟨s, f, hs, he⟩
    · rw [he]
      have harmed : Withdrawn c.topic true b { b with faults := f } := .same rfl rfl
      exact harmed.trans (withdrawn_note (by simp [Note.isWithdrawal, Verdict.call]) _)
    · rw [he]
      have hrequeued : b.store.requeue c.topic = .ok s := hs
      refine Withdrawn.trans ⟨⟨[.requeued id c.topic, .called .requeue c.topic none], rfl, ?_⟩, ?_,
        fun t payload ha => Store.requeue_available hrequeued ha⟩ (withdrawn_notify _ c.topic .nack)
      · simp [Note.isWithdrawal]
      · obtain ⟨-, key, -, rfl⟩ := Store.requeue_ok hrequeued
        exact fun _ => rfl

/-- Whoever has put back, or tried to, is still there, and holds nothing new. -/
theorem nack_left (hc : b.consumer? id = some c) :
    ∃ d, (b.settle id .nack).2.consumer? id = some d ∧ d.topic = c.topic ∧
      (d.holding = true → c.holding = true) := by
  cases hh : c.holding with
  | false =>
    rw [settle_idle hc hh]
    exact ⟨c, hc, rfl, fun h => hh ▸ h⟩
  | true =>
    rcases settle_cases hc hh .nack with ⟨e, f, he⟩ | ⟨s, f, -, he⟩
    · rw [he]
      exact ⟨c, hc, rfl, fun _ => rfl⟩
    · rw [he]
      rcases spared_notify (b.became f _ s id { c with holding := false }) c.topic .nack id with
        hsame | ⟨d, hd, -, hroused⟩
      · exact ⟨_, hsame.trans (consumer?_became_self ..), rfl, fun _ => rfl⟩
      · rw [consumer?_became_self] at hd
        cases hd
        exact ⟨_, hroused, Consumer.roused_topic _, fun _ => rfl⟩

theorem withdrawn_release (hc : b.consumer? id = some c) :
    Withdrawn c.topic c.holding b (b.release id) := by
  cases hh : c.holding with
  | false =>
    rw [release_idle hc hh]
    exact withdrawn_forget b id c.topic
  | true =>
    have hnack := withdrawn_nack hc
    rw [hh] at hnack
    rw [release_holding hc hh]
    refine Withdrawn.trans ?_ (withdrawn_forget _ id c.topic)
    cases hs : b.settle id .nack with
    | mk answer b₁ =>
      rw [hs] at hnack
      cases answer <;> exact hnack.trans (withdrawn_note rfl b₁)

/-- A wait that has been left is over. -/
theorem leave_left (hc : b.consumer? id = some c) :
    (b.leave id).consumer? id = some { c with waiting := false, wait := .idle } := by
  cases hw : c.waiting with
  | true => rw [leave_waiting hc hw, consumer?_setConsumer_self]
  | false =>
    have hset := consumer?_setConsumer_self b id { c with waiting := false, wait := .idle }
    rw [leave_woken hc hw]
    exact (notify_unwaiting (isWaiting_eq hset) c.topic .handoff).trans hset

/-- A call that is cancelled while it sleeps gives up, woken or not. -/
theorem withdrawn_resume (hc : b.consumer? id = some c) (hx : c.cancelled = true)
    (topic : String) (held : Bool) :
    (b.resume id).1 = some (.error .cancelled) ∧ Withdrawn topic held b (b.resume id).2 ∧
      ∃ permit, (b.resume id).2.consumer? id =
        some { c with permit, waiting := false, wait := .idle } := by
  rw [resume_cancelled hc hx]
  refine ⟨rfl, Withdrawn.trans ?_ (withdrawn_leave _ id), ?_⟩
  · split <;> exact .same rfl rfl
  · split
    · exact ⟨true, leave_left (consumer?_setConsumer_self ..)⟩
    · exact ⟨c.permit, leave_left hc⟩

/-- A call that is cancelled before it has begun gives up before it looks. -/
theorem begin_cancelled (hc : b.consumer? id = some c) (hx : c.cancelled = true)
    (hh : c.holding = false) :
    b.begin id = (some (.error .cancelled), b.became b.faults [] b.store id c.done) := by
  simp [begin, hc, hh, seek, look_cancelled b hx]

/-- Whoever asks for what is available gets it, unless the store is made to fail. -/
theorem begin_available (hc : b.consumer? id = some c) (hh : c.holding = false)
    (hx : c.cancelled = false) (hf : (b.faults.trip .fetchNext).1 = none)
    (ha : b.store.available? c.topic = some payload) : (b.begin id).1 = some (.ok payload) := by
  obtain ⟨s, hs⟩ := Store.available?_eq_some.mp ha
  have hset : ((b.setConsumer id c.alert).faults.trip .fetchNext).1 = none := hf
  have hlook := look_uncancelled b id hx
  rw [call_unfaulted hset, show (b.setConsumer id c.alert).store = b.store from rfl, hs] at hlook
  simp only [begin, hc, hh, seek, hlook, Bool.false_eq_true, if_false]

theorem deliverable_of_withdrawn (h : Withdrawn topic held b b') :
    ∀ t payload, b.store.available? t = some payload → Deliverable b' t payload := by
  intro t payload ha
  have hstill := h.available t payload ha
  refine ⟨hstill, ?_⟩
  rintro other d hd rfl hh hx hf
  exact begin_available hd hh hx hf hstill

theorem recalled_runNext (hc : b.consumer? id = some c) (hx : c.cancelled = true)
    (hw : c.wait ≠ .idle) (hh : c.holding = false) : Recalled id c b (b.runNext id) := by
  -- However far the call has come, it answers at once and leaves its wait.
  obtain ⟨b₁, hrun, hleft, hstore, permit, hd⟩ : ∃ b₁, b.runNext id =
      b₁.note (.returned id (.error .cancelled)) ∧ Withdrawn c.topic false b b₁ ∧
      b₁.store = b.store ∧ ∃ permit, b₁.consumer? id =
        some { c with permit, waiting := false, wait := .idle } := by
    unfold runNext
    rw [hc]
    dsimp only
    cases hwait : c.wait with
    | idle => exact absurd hwait hw
    | asked =>
      dsimp only
      rw [begin_cancelled hc hx hh]
      exact ⟨_, rfl, .same rfl rfl, rfl, false, consumer?_became_self ..⟩
    | parked | woken =>
      dsimp only
      obtain ⟨hanswer, hleft, hd⟩ := withdrawn_resume hc hx c.topic false
      have hstore : (b.resume id).2.store = b.store := by
        rw [resume_cancelled hc hx]
        refine (congrArg Ledger.store (ledger_leave _ id)).trans ?_
        split <;> rfl
      cases hr : b.resume id with
      | mk answer b₁ =>
        rw [hr] at hanswer hleft hd hstore
        obtain rfl : answer = some (.error .cancelled) := hanswer
        exact ⟨b₁, rfl, hleft, hstore, hd⟩
  have hwithdrawn : Withdrawn c.topic false b (b.runNext id) := by
    rw [hrun]
    exact hleft.trans (withdrawn_note rfl b₁)
  rw [hrun] at hwithdrawn ⊢
  exact ⟨rfl, ⟨_, hd, rfl, rfl, rfl, hh⟩, hwithdrawn, hstore, deliverable_of_withdrawn hwithdrawn⟩

end Broker

namespace Session
open Broker

variable {b : Broker} {id : ConsumerId} {c : Consumer} {topic : String} {held : Bool}

theorem withdrawn_close (hc : b.consumer? id = some c) :
    Withdrawn c.topic c.holding b (close b id) := by
  have hfinished : (b.note (.finished id)).consumer? id = some c := hc
  exact ((withdrawn_note rfl b).trans (withdrawn_release hfinished)).trans (withdrawn_note rfl _)

theorem withdrawn_disconnect (hc : b.consumer? id = some c) (error : Option ReadError) :
    Withdrawn c.topic c.holding b (disconnect b id error) ∧
      ∃ d, (disconnect b id error).consumer? id = some d ∧ d.topic = c.topic ∧
        (d.holding = true → c.holding = true) := by
  have hgone : (b.note (.disconnected error)).consumer? id = some c := hc
  have hnack := (withdrawn_note rfl b).trans (withdrawn_nack hgone)
  have hleft := nack_left hgone
  unfold disconnect putBack
  cases hs : (b.note (.disconnected error)).settle id .nack with
  | mk answer b₁ =>
    rw [hs] at hnack hleft
    cases answer with
    | ok => exact ⟨hnack.trans (withdrawn_note rfl b₁), hleft⟩
    | error e =>
      cases e with
      | nothingClaimed => exact ⟨hnack, hleft⟩
      | store | cancelled | alreadyHolding => exact ⟨hnack.trans (withdrawn_note rfl b₁), hleft⟩

/-- A session that is cancelled puts back what it has, and says no word more. -/
theorem withdrawn_run (s : Session) (hc : b.consumer? id = some c) (hx : c.cancelled = true) :
    ∃ b', s.run b id = (none, b') ∧ Withdrawn c.topic c.holding b b' ∧
      b'.consumer? id = none := by
  -- Both ways to the end close the session with its consumer as it is then.
  have hclosed : ∀ {m : Broker} {d : Consumer}, Withdrawn c.topic c.holding b m →
      m.consumer? id = some d → d.topic = c.topic → (d.holding = true → c.holding = true) →
      Withdrawn c.topic c.holding b (close m id) ∧ (close m id).consumer? id = none := by
    intro m d hm hd ht hh
    have hclose := (withdrawn_close hd).mono hh
    rw [ht] at hclose
    exact ⟨hm.trans hclose, consumer?_release _ id⟩
  unfold run
  split
  · obtain ⟨hleft, d, hd, ht, hh⟩ := withdrawn_disconnect hc none
    refine ⟨close (disconnect b id none) id, ?_, hclosed hleft hd ht hh⟩
    simp only [serve, isCancelled_eq hc, hx, if_true]
  · rename_i command _
    obtain ⟨hanswer, hleft, permit, hd⟩ := withdrawn_resume hc hx c.topic c.holding
    cases hr : b.resume id with
    | mk answer b₁ =>
      rw [hr] at hanswer hleft hd
      obtain rfl : answer = some (.error .cancelled) := hanswer
      have htold : Withdrawn c.topic c.holding b (b₁.note .waitCancelled) :=
        hleft.trans (withdrawn_note rfl b₁)
      exact ⟨close (b₁.note .waitCancelled) id, rfl, hclosed htold hd rfl fun h => h⟩

end Session

namespace Service
open Broker

/-- What has become of a cancelled session whose consumer stood as `c`. -/
structure Dismissed (id : ConsumerId) (c : Consumer) (s s' : Service) : Prop where
  ended : s'.sessions.look id = none
  gone : s'.broker.consumer? id = none
  /-- All that was asked of the store was to take back what the consumer held. -/
  withdrawn : Withdrawn c.topic c.holding s.broker s'.broker
  deliverable : ∀ topic payload, s.broker.store.available? topic = some payload →
    Deliverable s'.broker topic payload

variable {s : Service} {id : ConsumerId} {c : Consumer}

theorem dequeue_cons {rest : List ConsumerId} (h : s.broker.ready = id :: rest) :
    s.dequeue = some (id, { s with broker := { s.broker with ready := rest } }) := by
  unfold dequeue
  rw [h]

theorem dismissed_run {session : Session} (hid : s.sessions.look id = some session)
    (hc : s.broker.consumer? id = some c) (hx : c.cancelled = true) :
    Dismissed id c s (s.run id) := by
  have hspanned : ({ s.broker with span := session.span } : Broker).consumer? id = some c := hc
  obtain ⟨b', hr, hwithdrawn, hgone⟩ := session.withdrawn_run hspanned hx
  have hleft : Withdrawn c.topic c.holding s.broker { b' with span := none } :=
    ⟨hwithdrawn.told, hwithdrawn.trees, hwithdrawn.available⟩
  rw [run_session hid hr]
  exact ⟨Table.look_remove_self .., hgone, hleft, deliverable_of_withdrawn hleft⟩

/-- Whatever has come for a task besides, and in whatever order, its cancellation is seen first:
when it runs, a consumer's call gives up, and a session ends. This is so in every state. -/
theorem cancellation_wins (hc : s.broker.consumer? id = some c) (hx : c.cancelled = true) :
    (s.sessions.look id = none → c.wait ≠ .idle → c.holding = false →
      Recalled id c s.broker (s.run id).broker) ∧
    ∀ session, s.sessions.look id = some session → Dismissed id c s (s.run id) := by
  constructor
  · intro hnone hw hh
    have hrun : s.run id = { s with broker := s.broker.runNext id } := by simp [run, hnone]
    rw [hrun]
    exact recalled_runNext hc hx hw hh
  · intro session hid
    exact dismissed_run hid hc hx

end Service

namespace Scene
open Broker Service

/-- A consumer has been woken for an entry and a session holds another, with a command still to
read, when both are cancelled. -/
def overtaken : List Step :=
  [⟨.subscribe "t" "c", false⟩, ⟨.session "u" "s" false, false⟩, ⟨.next "c" false, false⟩,
   ⟨.publish "u" [2], false⟩, ⟨.command "s" .init, false⟩, ⟨.publish "t" [1], true⟩,
   ⟨.command "s" .ack, true⟩, ⟨.cancel "c", true⟩, ⟨.cancel "s", true⟩]

/-- The task of the consumer's call is taken off the queue. -/
def overtakenCall : Service :=
  { (after overtaken).service with broker := { (after overtaken).broker with ready := [1] } }

/-- When that has run, the session's task is taken. -/
def overtakenSession : Service :=
  { overtakenCall.run 0 with broker := { (overtakenCall.run 0).broker with ready := [] } }

theorem overtaken_withdraws :
    (after overtaken).service.dequeue = some (0, overtakenCall) ∧
    (overtakenCall.run 0).dequeue = some (1, overtakenSession) ∧
    Recalled 0 { topic := "t", wait := .woken, cancelled := true } overtakenCall.broker
      (overtakenCall.run 0).broker ∧
    Deliverable (overtakenCall.run 0).broker "t" [1] ∧
    Dismissed 1 { topic := "u", holding := true, cancelled := true } overtakenSession
      (overtakenSession.run 1) := by
  have hcall : overtakenCall.broker.consumer? 0 =
      some { topic := "t", wait := .woken, cancelled := true } := by decide +kernel
  have hsession : overtakenSession.broker.consumer? 1 =
      some { topic := "u", holding := true, cancelled := true } := by decide +kernel
  have hplain : overtakenCall.sessions.look 0 = none :=
    Option.isNone_iff_eq_none.mp (by decide +kernel)
  obtain ⟨session, hid⟩ : ∃ session, overtakenSession.sessions.look 1 = some session :=
    Option.isSome_iff_exists.mp (by decide +kernel)
  have hrecalled := (cancellation_wins hcall rfl).1 hplain (by decide) rfl
  refine ⟨dequeue_cons (by decide +kernel), dequeue_cons (by decide +kernel), hrecalled, ?_, ?_⟩
  · exact hrecalled.deliverable "t" [1] (by decide +kernel)
  · exact (cancellation_wins hsession rfl).2 session hid

end Scene

end TopicQueue

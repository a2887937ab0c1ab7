import TopicQueue.Proofs.Cancellations
import TopicQueue.Proofs.Errands

namespace TopicQueue

namespace Broker

/-- The wake of a consumer has gone with it. -/
structure KeptBack (id : ConsumerId) (b b' : Broker) : Prop where
  ended : ∀ c, b'.consumer? id = some c → c.wait = .idle
  others : ∀ other, other ≠ id → b'.consumer? other = b.consumer? other
  ready : ∀ other ∈ b'.ready, other ∈ b.ready
  store : b'.store = b.store

/-- The next look at a topic fails in this way. -/
def LookFails (b : Broker) (topic : String) (e : StoreError) : Prop :=
  match (b.faults.trip .fetchNext).1 with
  | some kind => e = kind.error topic
  | none => b.store.fetchNext topic = .error e

variable {b b' : Broker} {id : ConsumerId} {c : Consumer} {r : Option ConsumerId}
  {topic : String} {e : StoreError}

/-- Whoever has been woken has its flag down. -/
theorem Attended.woken_down (ha : b.Attended r) (hc : b.consumer? id = some c)
    (hw : c.wait = .woken) : c.waiting = false := by
  by_contra hup
  rw [Bool.not_eq_false, ha.flagged id c hc, hw] at hup
  cases hup

/-- A call that has been woken, and then cancelled before it runs. -/
theorem Attended.resume_hands_on (ha : b.Attended r) (hc : b.consumer? id = some c)
    (hw : c.wait = .woken) (hx : c.cancelled = true) : HandedOn id c.topic b (b.resume id).2 := by
  have hdown := ha.woken_down hc hw
  have hkept := consumer?_setConsumer_self b id { c with permit := true }
  rw [resume_cancelled hc hx, if_pos hw, leave_woken hkept hdown]
  have hshifted := (shifted_setConsumer hc { c with permit := true } rfl).set
    { c with permit := true, waiting := false, wait := .idle } rfl
  exact hshifted.hands_on ha hdown rfl .handoff

/-- A call that has been woken, and is given up from outside before it runs. -/
theorem Attended.abandon_hands_on (ha : b.Attended r) (hc : b.consumer? id = some c)
    (hw : c.wait = .woken) : HandedOn id c.topic b (b.abandon id) ∧
      (b.abandon id).consumer? id =
        some { c with permit := true, waiting := false, wait := .idle } := by
  have hdown := ha.woken_down hc hw
  have hoff := (shifted_off hc).set { c with permit := true } rfl
  have habandon : b.abandon id =
      (setConsumer { b with ready := b.ready.filter (· != id) } id
        { c with permit := true }).leave id := by
    simp [abandon, hc, hw]
  rw [habandon]
  refine ⟨?_, leave_left hoff.after_self⟩
  rw [leave_woken hoff.after_self hdown]
  exact (hoff.set { c with permit := true, waiting := false, wait := .idle } rfl).hands_on ha hdown
    rfl .handoff

theorem call_fails (h : b.LookFails topic e) : b.call .fetchNext topic (·.fetchNext topic) =
    (.error e, { b with faults := (b.faults.trip .fetchNext).2 }.note
      (.called .fetchNext topic (some e))) := by
  unfold LookFails at h
  split at h
  · rename_i kind hk
    rw [call_faulted hk, h]
  · rename_i hk
    rw [call_unfaulted hk, h]

/-- The look after a wake fails, and the call with it; its flag has been up meanwhile. -/
theorem resume_fails (hc : b.consumer? id = some c) (hw : c.wait = .woken)
    (hx : c.cancelled = false) (hf : b.LookFails c.topic e) : ∃ f j,
    b.resume id = (some (.error (.store e)), b.became f j b.store id c.done) := by
  have hresult : (b.resume id).1 = some (.error (.store e)) := by
    have hset : ((b.note (.woken id c.topic)).setConsumer id c.alert).LookFails c.topic e := hf
    have hlook := look_uncancelled (b.note (.woken id c.topic)) id hx
    rw [call_fails hset] at hlook
    simp [resume, hc, hx, hw, seek, hlook]
  have hsought := resume_woken hc hx hw
  generalize b.resume id = res at *
  cases hsought with
  | cancelled | claimed | nothing => cases hresult
  | failed f j e' =>
    cases hresult
    exact ⟨f, j ++ [⟨b.span, .woken id c.topic⟩], by simp [became, Broker.note]⟩

theorem KeptBack.note (h : KeptBack id b b') (n : Note) : KeptBack id b (b'.note n) :=
  ⟨h.ended, h.others, h.ready, h.store⟩

theorem KeptBack.forget (h : KeptBack id b b') (t : String) : KeptBack id b (b'.forget id t) where
  ended d hd := by
    rw [consumer?_forget_eq, if_pos rfl] at hd
    cases hd
  others other hne := (consumer?_forget hne t).trans (h.others other hne)
  ready := h.ready
  store := h.store

theorem kept_back_became (b : Broker) (f : Faults) (j : Journal) (id : ConsumerId) (c : Consumer) :
    KeptBack id b (b.became f j b.store id c.done) where
  ended d hd := by
    rw [consumer?_became_self] at hd
    cases hd
    rfl
  others _ hne := consumer?_became hne ..
  ready _ hm := hm
  store := rfl

/-- What the run of a woken call comes to that gets no message. -/
structure Unserved (id : ConsumerId) (c : Consumer) (b b' : Broker) : Prop where
  cancelled : c.cancelled = true → HandedOn id c.topic b b'
  failed : ∀ e, c.cancelled = false → b.LookFails c.topic e → KeptBack id b b'

/-- Without a message a consumer goes as if it had not been there. -/
theorem close_unheld {b : Broker} (hc : b.consumer? id = some c) (hh : c.holding = false) :
    Session.close b id = ((b.note (.finished id)).forget id c.topic).note (.ended id) := by
  have hfinished : (b.note (.finished id)).consumer? id = some c := hc
  rw [Session.close, release_idle hfinished hh]

end Broker

namespace Session
open Broker

variable {s : Session} {b : Broker} {id : ConsumerId} {c : Consumer} {r : Option ConsumerId}

/-- A session that has been woken and gets no message ends. -/
theorem run_unserved {command : Command} (hp : s.position = .awaiting command)
    (ha : b.Attended r) (hc : b.consumer? id = some c) (hw : c.wait = .woken)
    (hh : c.holding = false) : Unserved id c b (s.run b id).2 := by
  constructor
  case cancelled =>
    intro hx
    have hhanded := ha.resume_hands_on hc hw hx
    obtain ⟨hanswer, -, permit, hd⟩ := withdrawn_resume hc hx c.topic c.holding
    cases hr : b.resume id with
    | mk answer b₁ =>
      rw [hr] at hhanded hanswer hd
      obtain rfl : answer = some (.error .cancelled) := hanswer
      have htold : (b₁.note .waitCancelled).consumer? id =
          some { c with permit, waiting := false, wait := .idle } := hd
      simp only [run, hp, hr, conclude, close_unheld htold hh]
      exact (((hhanded.note _).note _).forget c.topic).note _
  case failed =>
    intro e hx hf
    obtain ⟨f, j, hr⟩ := resume_fails hc hw hx hf
    have hkept := kept_back_became b f j id c
    obtain ⟨n, hwrite⟩ : ∃ n, (write s.deaf ((b.became f j b.store id c.done).note
        (.nextFailed (.store e))) id (.ofError .nextValue)).2 =
        ((b.became f j b.store id c.done).note (.nextFailed (.store e))).note n := by
      unfold write
      split <;> exact ⟨_, rfl⟩
    have hdone : (((b.became f j b.store id c.done).note (.nextFailed (.store e))).note
        n).consumer? id = some c.done := consumer?_became_self b f j b.store id c.done
    simp only [run, hp, hr, conclude, hwrite, close_unheld hdone hh]
    exact ((((hkept.note _).note _).note _).forget c.topic).note _

end Session

namespace Scene
open Broker Service

/-- How the wake of a consumer that has been woken, and has not run since, can go unused. -/
structure Unused (s : Scene) (id : ConsumerId) (c : Consumer) : Prop where
  aborted : ∀ name caller, s.callers.look name = some caller → caller.id = id →
    HandedOn id c.topic s.broker (s.perform (.abort name)).2.broker
  dropped : ∀ name caller, s.callers.look name = some caller → caller.id = id →
    HandedOn id c.topic s.broker (s.perform (.drop name)).2.broker
  /-- Its task runs, for a call of its own or for its session. -/
  ran : ∀ taken, s.service.dequeue = some (id, taken) →
    Unserved id c taken.broker (taken.run id).broker

variable {s : Scene} {id : ConsumerId} {c : Consumer}

theorem Reachable.ran_unserved (hs : s.Reachable) (hc : s.broker.consumer? id = some c)
    (hw : c.wait = .woken) {taken : Service} (hd : s.service.dequeue = some (id, taken)) :
    Unserved id c taken.broker (taken.run id).broker := by
  have hh : c.holding = false := hs.ordered.empty id c hc (.inr hw)
  obtain ⟨rest, hready, hbroker, -⟩ := dequeue_some hd
  have ha : taken.broker.Attended (some id) := by
    rw [hbroker]
    exact Reaches.attended (.single ⟨id, .take hready⟩) hs.watched.1
  have htaken : taken.broker.consumer? id = some c := by
    rw [hbroker]
    exact hc
  cases hid : taken.sessions.look id with
  | none =>
    have hrun : taken.run id = { taken with broker := taken.broker.runNext id } := by
      simp [run, hid]
    rw [hrun]
    constructor
    case cancelled =>
      intro hx
      have hhanded := ha.resume_hands_on htaken hw hx
      simp only [runNext, htaken, hw]
      split
      · exact hhanded
      · exact hhanded.note _
    case failed =>
      intro e hx hf
      obtain ⟨f, j, hr⟩ := resume_fails htaken hw hx hf
      simp only [runNext, htaken, hw, hr]
      exact (kept_back_became taken.broker f j id c).note _
  | some session =>
    have hspanned : ({ taken.broker with span := session.span } : Broker).Attended (some id) :=
      ⟨ha.fresh, ha.listed, ha.enrolled, ha.flagged, ha.queued⟩
    have hstands := (hs.orderly.service.dequeued hd).stands id session hid
    cases hp : session.position with
    | reading =>
      rw [Session.Stands, hp] at hstands
      rw [hstands.idle c htaken] at hw
      cases hw
    | awaiting command =>
      have hrun := session.run_unserved hp hspanned htaken hw hh
      cases hr : session.run { taken.broker with span := session.span } id with
      | mk left b =>
        rw [hr] at hrun
        rw [run_session hid hr]
        refine ⟨fun hx => ?_, fun e hx hf => ?_⟩
        · exact ⟨(hrun.cancelled hx).woken, (hrun.cancelled hx).others⟩
        · obtain ⟨hended, hothers, hready, hstore⟩ := hrun.failed e hx hf
          exact ⟨hended, hothers, hready, hstore⟩

/-- A wake that is not used goes on to the next who sleeps, with one exception: the look that a woken
call makes at the store fails. Then nobody is woken, whoever may still sleep. -/
theorem unused_wakes_handed_on (hs : s.Reachable) (hc : s.broker.consumer? id = some c)
    (hw : c.wait = .woken) : s.Unused id c := by
  have hh : c.holding = false := hs.ordered.empty id c hc (.inr hw)
  obtain ⟨ha, -⟩ := hs.watched
  obtain ⟨hhanded, hleft⟩ := ha.abandon_hands_on hc hw
  constructor
  case aborted =>
    rintro name caller hcaller rfl
    simp only [perform, hcaller]
    exact hhanded
  case dropped =>
    rintro name caller hcaller rfl
    simp only [perform, hcaller]
    change HandedOn _ _ _ ((s.broker.abandon caller.id).release caller.id)
    rw [release_idle hleft hh]
    exact hhanded.forget c.topic
  case ran =>
    intro taken hd
    exact hs.ran_unserved hc hw hd

/-- Two consumers sleep, the first is woken for an entry, and the store is about to refuse one
look. -/
def lookRefused : List Step :=
  [⟨.subscribe "t" "c", false⟩, ⟨.subscribe "t" "d", false⟩, ⟨.next "c" false, false⟩,
   ⟨.next "d" false, false⟩, ⟨.fault .fetchNext ⟨.closed, 0, 1⟩, false⟩, ⟨.publish "t" [1], true⟩]

theorem lookRefused_exits :
    (after lookRefused).broker.sleepers "t" = [1] ∧
    HandedOn 0 "t" (after lookRefused).broker ((after lookRefused).perform (.abort "c")).2.broker ∧
    HandedOn 0 "t" (after lookRefused).broker ((after lookRefused).perform (.drop "c")).2.broker ∧
    ∃ taken, (after lookRefused).service.dequeue = some (0, taken) ∧
      KeptBack 0 taken.broker (taken.run 0).broker := by
  have hwoken : (after lookRefused).broker.consumer? 0 = some { topic := "t", wait := .woken } := by
    decide +kernel
  have hunused := unused_wakes_handed_on (reachable_after (by decide)) hwoken rfl
  have hcaller : (after lookRefused).callers.look "c" = some { id := 0, asked := true } := by
    decide +kernel
  have hd := dequeue_only (s := after lookRefused) (w := 0) (by decide +kernel)
  have htrip : ((after lookRefused).broker.faults.trip .fetchNext).1 = some .closed := by
    decide +kernel
  have hfails : LookFails { (after lookRefused).broker with ready := [] } "t" .closed := by
    rw [LookFails, htrip]
    rfl
  exact ⟨by decide +kernel, hunused.aborted "c" _ hcaller rfl, hunused.dropped "c" _ hcaller rfl,
    _, hd, (hunused.ran _ hd).failed .closed rfl hfails⟩

/-- The look is refused, and the other consumer sleeps on beside an entry that nobody has claimed. -/
theorem lookRefused_wakes_nobody : ∃ taken, (after lookRefused).service.dequeue = some (0, taken) ∧
    (taken.run 0).broker.errands.head? = some ⟨.fetchNext, "t", some .closed⟩ ∧
    (taken.run 0).broker.consumer? 0 = some { topic := "t" } ∧
    (taken.run 0).broker.consumer? 1 =
      some { topic := "t", waiting := true, wait := .parked } ∧
    (taken.run 0).broker.ready = [] ∧ (taken.run 0).broker.Claimable "t" := by
  refine ⟨_, dequeue_only (by decide +kernel), ?_, ?_, ?_, ?_, ?_⟩
  · decide +kernel
  · decide +kernel
  · decide +kernel
  · decide +kernel
  · decide +kernel

end Scene

end TopicQueue

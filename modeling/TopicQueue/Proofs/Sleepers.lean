import TopicQueue.Proofs.Exchanges
import TopicQueue.Proofs.Wakes

namespace TopicQueue

namespace Broker

/-- Nobody has joined or left, no task but this one's has been taken off the queue, and it goes on
for the same request. -/
def Steady (id : ConsumerId) (b b' : Broker) : Prop :=
  b'.topics = b.topics ∧ b'.nextId = b.nextId ∧ b'.span = b.span ∧
    ∀ other, other ≠ id → other ∈ b.ready → other ∈ b'.ready

variable {b b' b'' : Broker} {id other : ConsumerId} {c : Consumer} {r : Option ConsumerId}

theorem Steady.topics (h : Steady id b b') : b'.topics = b.topics := h.1

theorem Steady.nextId (h : Steady id b b') : b'.nextId = b.nextId := h.2.1

theorem Steady.span (h : Steady id b b') : b'.span = b.span := h.2.2.1

theorem Steady.ready (h : Steady id b b') (hne : other ≠ id) (hm : other ∈ b.ready) :
    other ∈ b'.ready :=
  h.2.2.2 other hne hm

theorem Steady.refl (id : ConsumerId) (b : Broker) : Steady id b b :=
  ⟨rfl, rfl, rfl, fun _ _ hm => hm⟩

theorem Steady.trans (h : Steady id b b') (h' : Steady id b' b'') : Steady id b b'' :=
  ⟨h'.topics.trans h.topics, h'.nextId.trans h.nextId, h'.span.trans h.span,
    fun _ hne hm => h'.ready hne (h.ready hne hm)⟩

theorem steady_enqueue (b : Broker) (other : ConsumerId) : Steady id b (b.enqueue other) :=
  ⟨enqueue_topics b other, enqueue_nextId b other, by unfold enqueue; split <;> rfl,
    fun _ _ hm => mem_enqueue_of_mem other hm⟩

theorem steady_wake (b : Broker) (other : ConsumerId) : Steady id b (b.wake other) := by
  unfold wake
  split
  · exact .refl id b
  · split
    · exact steady_enqueue (b.setConsumer other _) other
    · exact .refl id b

theorem steady_notify (b : Broker) (topic : String) (reason : WakeReason) :
    Steady id b (b.notify topic reason) := by
  rcases b.notify_cases topic reason with ⟨n, -, he, -⟩ | ⟨other, c, roster, -, -, -, -, he⟩
  · rw [he]
    exact .refl id b
  · rw [he]
    exact steady_wake b other

theorem steady_leave (b : Broker) (other : ConsumerId) : Steady id b (b.leave other) := by
  unfold leave
  split
  · exact .refl id b
  · dsimp only
    split
    · exact .refl id b
    · exact steady_notify (b.setConsumer other _) _ _

theorem steady_publish (b : Broker) (topic : String) (payload : Bytes) :
    Steady id b (b.publish topic payload).2 := by
  rcases b.publish_cases topic payload with ⟨e, f, he⟩ | ⟨s, f, -, he⟩
  · rw [he]
    exact .refl id b
  · rw [he]
    exact steady_notify (b := (({ b with faults := f, store := s } : Broker).note _).note _) topic _

theorem steady_shutdown (b : Broker) : Steady id b b.shutdown.2 := by
  rcases b.shutdown_cases with ⟨e, f, he⟩ | ⟨f, he⟩ <;>
  · rw [he]
    exact .refl id b

theorem Sought.steady {rest : Consumer} {res : Option (Except BrokerError Bytes) × Broker}
    (h : Sought b other c rest res) : Steady id b res.2 := by
  cases h <;> exact .refl id b

theorem steady_begin (b : Broker) (other : ConsumerId) : Steady id b (b.begin other).2 := by
  cases hc : b.consumer? other with
  | none =>
    simp only [begin, hc]
    exact .refl id b
  | some c =>
    rcases begin_cases hc with ⟨-, he⟩ | ⟨-, hs⟩
    · rw [he]
      exact .refl id b
    · exact hs.steady

theorem steady_resume (b : Broker) (other : ConsumerId) : Steady id b (b.resume other).2 := by
  cases hc : b.consumer? other with
  | none =>
    simp only [resume, hc]
    exact .refl id b
  | some c =>
    cases hcancel : c.cancelled with
    | true =>
      rw [resume_cancelled hc hcancel]
      dsimp only
      split
      · exact steady_leave (b.setConsumer other { c with permit := true }) other
      · exact steady_leave b other
    | false =>
      by_cases hw : c.wait = .woken
      · exact (resume_woken hc hcancel hw).steady
      · rw [resume_asleep hc hcancel hw]
        exact .refl id b

theorem steady_settle (b : Broker) (other : ConsumerId) (v : Verdict) :
    Steady id b (b.settle other v).2 := by
  cases hc : b.consumer? other with
  | none =>
    simp only [settle, hc]
    exact .refl id b
  | some c =>
    cases hh : c.holding with
    | false =>
      rw [settle_idle hc hh]
      exact .refl id b
    | true =>
      rcases settle_cases hc hh v with ⟨e, f, he⟩ | ⟨s, f, -, he⟩
      · rw [he]
        exact .refl id b
      · rw [he]
        exact steady_notify (b.became f _ s other _) c.topic v.reason

theorem steady_ask (b : Broker) (other : ConsumerId) (cancelled : Bool) :
    Steady id b (b.ask other cancelled) := by
  unfold ask
  split
  · exact .refl id b
  · exact steady_enqueue (b.setConsumer other _) other

theorem steady_cancel (b : Broker) (other : ConsumerId) : Steady id b (b.cancel other) := by
  unfold cancel
  split
  · exact .refl id b
  · dsimp only
    split
    · exact steady_enqueue (b.setConsumer other _) other
    · exact .refl id b

theorem steady_abandon (b : Broker) (id : ConsumerId) : Steady id b (b.abandon id) := by
  have hoff : Steady id b { b with ready := b.ready.filter (· != id) } :=
    ⟨rfl, rfl, rfl, fun other hne hm => List.mem_filter.mpr ⟨hm, by simpa using hne⟩⟩
  unfold abandon
  split
  · exact .refl id b
  · dsimp only
    split
    · exact hoff
    · exact hoff
    · exact hoff.trans (steady_leave _ id)
    · exact hoff.trans (steady_leave (setConsumer { b with ready := _ } id _) id)

theorem consumer?_ask (h : b.consumer? id = some c) (cancelled : Bool) :
    (b.ask id cancelled).consumer? id = some { c with cancelled, wait := .asked } := by
  simp [ask, h]

theorem ask_none (h : b.consumer? id = none) (cancelled : Bool) : b.ask id cancelled = b := by
  simp [ask, h]

theorem consumer?_cancel (h : b.consumer? id = some c) :
    (b.cancel id).consumer? id = some { c with cancelled := true } := by
  simp only [cancel, h]
  split <;> simp

theorem cancel_none (h : b.consumer? id = none) : b.cancel id = b := by
  simp [cancel, h]

/-- Before its consumer is forgotten, a release settles what it holds. -/
theorem release_forgets (h : b.consumer? id = some c) :
    ∃ b₁, b.release id = b₁.forget id c.topic ∧ Steady id b b₁ ∧
      ∀ other, other ≠ id → Spared other b b₁ := by
  cases hh : c.holding with
  | false => exact ⟨b, release_idle h hh, .refl id b, fun _ _ => .of_eq rfl⟩
  | true =>
    have hsteady : Steady id b (b.settle id .nack).2 := steady_settle b id .nack
    have hspared : ∀ other, other ≠ id → Spared other b (b.settle id .nack).2 :=
      fun other hne => spared_settle hne .nack
    rw [release_holding h hh]
    cases hs : b.settle id .nack with
    | mk answer b₁ =>
      rw [hs] at hsteady hspared
      cases answer with
      | ok => exact ⟨_, rfl, hsteady, hspared⟩
      | error e => exact ⟨_, rfl, hsteady, hspared⟩

/-- Rosters in the order of registration, and sleepers without a message. -/
structure Ordered (b : Broker) : Prop where
  sorted : ∀ topic r, b.roster? topic = some r → r.members.Pairwise (· < ·)
  empty : ∀ id c, b.consumer? id = some c → c.wait = .parked ∨ c.wait = .woken → c.holding = false

theorem Ordered.steady_sorted (h : b.Ordered) (hs : Steady id b b') :
    ∀ topic r, b'.roster? topic = some r → r.members.Pairwise (· < ·) := by
  intro topic r hr
  rw [roster?, hs.topics] at hr
  exact h.sorted topic r hr

/-- Waking takes no message away, and gives none. -/
theorem Ordered.spared_empty (h : b.Ordered) (hs : Spared id b b') :
    b'.consumer? id = some c → c.wait = .parked ∨ c.wait = .woken → c.holding = false := by
  intro hc hw
  rcases hs with he | ⟨d, hd, -, he⟩
  · exact h.empty id c (he ▸ hc) hw
  · rw [hc] at he
    cases he
    rw [Consumer.roused_holding]
    refine h.empty id d hd ?_
    unfold Consumer.roused at hw
    split at hw
    · rename_i hp
      exact .inl hp
    · exact hw

/-- A consumer alone may have changed, and it sleeps without a message if it sleeps. -/
theorem Ordered.step (h : b.Ordered) (hs : Steady id b b')
    (hother : ∀ other, other ≠ id → Spared other b b')
    (hown : ∀ c, b'.consumer? id = some c → c.wait = .parked ∨ c.wait = .woken →
      c.holding = false) : b'.Ordered := by
  refine ⟨h.steady_sorted hs, ?_⟩
  intro other c hc hw
  by_cases hne : other = id
  · exact hown c (hne ▸ hc) hw
  · exact h.spared_empty (hother other hne) hc hw

theorem Ordered.woken (h : b.Ordered) (hs : ∀ id, Steady id b b') (hall : ∀ id, Spared id b b') :
    b'.Ordered :=
  h.step (hs 0) (fun other _ => hall other) fun _ hc hw => h.spared_empty (hall 0) hc hw

theorem Sought.empty {res : Option (Except BrokerError Bytes) × Broker}
    (h : Sought b id c c.asleep res) (hh : c.holding = false) :
    ∀ c', res.2.consumer? id = some c' → c'.wait = .parked ∨ c'.wait = .woken →
      c'.holding = false := by
  intro c' hc' hw
  cases h with
  | cancelled f j | failed f j | claimed f j =>
    rw [consumer?_became_self] at hc'
    cases hc'
    simp [Consumer.done] at hw
  | nothing f j =>
    rw [consumer?_became_self] at hc'
    cases hc'
    exact hh

theorem Ordered.begin (h : b.Ordered) (id : ConsumerId) : (b.begin id).2.Ordered := by
  refine h.step (steady_begin b id) (fun _ hne => spared_begin hne) ?_
  cases hc : b.consumer? id with
  | none =>
    intro c' hc'
    simp [Broker.begin, hc] at hc'
  | some c =>
    rcases begin_cases hc with ⟨-, he⟩ | ⟨hh, hs⟩
    · rw [he]
      intro c' hc' hw
      rw [consumer?_setConsumer_self] at hc'
      cases hc'
      simp at hw
    · exact hs.empty hh

theorem Ordered.resume (h : b.Ordered) (id : ConsumerId) : (b.resume id).2.Ordered := by
  refine h.step (steady_resume b id) (fun _ hne => spared_resume hne) ?_
  cases hc : b.consumer? id with
  | none =>
    intro c' hc'
    simp [Broker.resume, hc] at hc'
  | some c =>
    cases hcancel : c.cancelled with
    | true =>
      have hidle : ∀ {b : Broker} {c : Consumer}, b.consumer? id = some c →
          ∀ c', (b.leave id).consumer? id = some c' → c'.wait = .parked ∨ c'.wait = .woken →
            c'.holding = false := by
        intro b c hc c' hc' hw
        rw [(resting_leave hc).idle c' hc'] at hw
        simp at hw
      rw [resume_cancelled hc hcancel]
      dsimp only
      split
      · exact hidle (consumer?_setConsumer_self ..)
      · exact hidle hc
    | false =>
      by_cases hw : c.wait = .woken
      · exact (resume_woken hc hcancel hw).empty (h.empty id c hc (.inr hw))
      · rw [resume_asleep hc hcancel hw]
        exact h.empty id

theorem Ordered.settle (h : b.Ordered) (id : ConsumerId) (v : Verdict) :
    (b.settle id v).2.Ordered := by
  refine h.step (steady_settle b id v) (fun _ hne => spared_settle hne v) ?_
  cases hc : b.consumer? id with
  | none =>
    intro c' hc'
    simp [Broker.settle, hc] at hc'
  | some c =>
    cases hh : c.holding with
    | false =>
      rw [settle_idle hc hh]
      exact h.empty id
    | true =>
      rcases settle_cases hc hh v with ⟨e, f, he⟩ | ⟨s, f, -, he⟩
      · rw [he]
        exact h.empty id
      · rw [he]
        intro c' hc' _
        rcases spared_notify _ c.topic v.reason id with he' | ⟨d, hd, -, he'⟩
        · rw [he', consumer?_became_self] at hc'
          cases hc'
          rfl
        · rw [consumer?_became_self] at hd
          cases hd
          rw [he'] at hc'
          cases hc'
          exact Consumer.roused_holding _

theorem Ordered.subscribe (h : b.Ordered) (ha : b.Attended r) (topic : String) :
    (b.subscribe topic).2.Ordered := by
  constructor
  case sorted =>
    intro t roster hr
    rw [roster?_subscribe] at hr
    split at hr
    · cases hr
      cases hb : b.roster? topic with
      | none => simp [Roster.enrol]
      | some roster =>
        refine List.pairwise_append.mpr ⟨h.sorted topic roster hb, List.pairwise_singleton .., ?_⟩
        intro other hm new hnew
        obtain ⟨c, hc, -⟩ := ha.enrolled topic roster hb other hm
        rw [List.mem_singleton.mp hnew]
        exact ha.fresh other c hc
    · exact h.sorted t roster hr
  case empty =>
    intro other c hc hw
    rw [consumer?_subscribe] at hc
    split at hc
    · cases hc
      rfl
    · exact h.empty other c hc hw

theorem Ordered.forget (h : b.Ordered) (id : ConsumerId) (topic : String) :
    (b.forget id topic).Ordered := by
  constructor
  case sorted =>
    intro t roster hr
    rw [roster?_forget] at hr
    split at hr
    · obtain ⟨hr, -⟩ := Option.filter_eq_some_iff.mp hr
      obtain ⟨roster, hb, rfl⟩ := Option.map_eq_some_iff.mp hr
      exact (h.sorted topic roster hb).filter _
    · exact h.sorted t roster hr
  case empty =>
    intro other c hc hw
    rw [consumer?_forget_eq] at hc
    split at hc
    · cases hc
    · exact h.empty other c hc hw

theorem Ordered.release (h : b.Ordered) (id : ConsumerId) : (b.release id).Ordered := by
  cases hc : b.consumer? id with
  | none => simpa [Broker.release, hc] using h
  | some c =>
    cases hh : c.holding with
    | false =>
      rw [release_idle hc hh]
      exact h.forget id c.topic
    | true =>
      have hsettle := h.settle id .nack
      rw [release_holding hc hh]
      refine Ordered.forget ?_ id c.topic
      split
      · rename_i b₁ he
        rw [he] at hsettle
        exact ⟨hsettle.sorted, hsettle.empty⟩
      · rename_i e b₁ he
        rw [he] at hsettle
        exact ⟨hsettle.sorted, hsettle.empty⟩

end Broker

open Broker

theorem Call.ordered {id : ConsumerId} {m m' : Moment} (h : Call id m m')
    (ha : m.broker.Attended m.running) (ho : m.broker.Ordered) : m'.broker.Ordered := by
  cases h with
  | note | span | tick | arm | take | rest => exact ⟨ho.sorted, ho.empty⟩
  | publish topic payload =>
    exact ho.woken (fun _ => steady_publish _ topic payload) (spared_publish _ topic payload)
  | notify topic reason =>
    exact ho.woken (fun _ => steady_notify _ topic reason) (spared_notify _ topic reason)
  | shutdown => exact ho.woken (fun _ => steady_shutdown _) (spared_shutdown _)
  | subscribe topic => exact ho.subscribe ha topic
  | enqueue other =>
    exact ho.woken (fun _ => steady_enqueue _ other) fun i => .of_eq (consumer?_enqueue _ other i)
  | @ask b _ cancelled h =>
    refine ho.step (steady_ask b id cancelled) (fun _ hne => spared_ask hne cancelled) ?_
    intro c hc hw
    cases hb : b.consumer? id with
    | none =>
      rw [ask_none hb, hb] at hc
      cases hc
    | some d =>
      rw [consumer?_ask hb] at hc
      cases hc
      simp at hw
  | @cancel b =>
    refine ho.step (steady_cancel b id) (fun _ hne => spared_cancel hne) ?_
    intro c hc hw
    cases hb : b.consumer? id with
    | none =>
      rw [cancel_none hb, hb] at hc
      cases hc
    | some d =>
      rw [consumer?_cancel hb] at hc
      cases hc
      exact ho.empty id d hb hw
  | @abandon b =>
    refine ho.step (steady_abandon b id) (fun _ hne => spared_abandon hne) ?_
    intro c hc hw
    rw [idle_abandon b id c hc] at hw
    simp at hw
  | settle v => exact ho.settle id v
  | release => exact ho.release id
  | begin => exact ho.begin id
  | resume => exact ho.resume id

theorem Reaches.ordered {m m' : Moment} (h : Reaches m m') (ha : m.broker.Attended m.running)
    (ho : m.broker.Ordered) : m'.broker.Ordered := by
  induction h with
  | refl => exact ho
  | tail hcalls hcall ih =>
    obtain ⟨id, hcall⟩ := hcall
    exact hcall.ordered (Reaches.attended hcalls ha) ih

theorem Scene.Reachable.ordered {s : Scene} (h : s.Reachable) : s.broker.Ordered := by
  obtain ⟨flushOnInsert, hr⟩ := h.reaches
  refine hr.ordered (attended_start flushOnInsert) ⟨?_, ?_⟩
  · intro topic r hr
    cases hr
  · intro id c hc
    cases hc

namespace Broker

variable {b b' b'' : Broker} {id other : ConsumerId} {c : Consumer}

/-- Nobody sleeps who has been cancelled and is not about to run. -/
def Heedful (b : Broker) : Prop :=
  ∀ id c, b.consumer? id = some c → c.wait = .parked → c.cancelled = true → id ∈ b.ready

/-- Whoever is woken once is not woken again while its flag is down. -/
theorem Spared.trans (h : Spared id b b') (h' : Spared id b' b'') : Spared id b b'' := by
  rcases h with he | ⟨c, hc, hw, he⟩
  · rcases h' with he' | ⟨c', hc', hw', he'⟩
    · exact .inl (he'.trans he)
    · exact .inr ⟨c', he.symm.trans hc', hw', he'⟩
  · rcases h' with he' | ⟨c', hc', hw', -⟩
    · exact .inr ⟨c, hc, hw, he'.trans he⟩
    · rw [he] at hc'
      cases hc'
      unfold Consumer.roused at hw'
      split at hw' <;> cases hw'

/-- What one consumer does wakes others at most, and takes nobody else's task off the queue. -/
structure Apart (id : ConsumerId) (b b' : Broker) : Prop where
  spared : ∀ other, other ≠ id → Spared other b b'
  ready : ∀ other, other ≠ id → other ∈ b.ready → other ∈ b'.ready

theorem Apart.refl (id : ConsumerId) (b : Broker) : Apart id b b :=
  ⟨fun _ _ => .of_eq rfl, fun _ _ hm => hm⟩

theorem Apart.trans (h : Apart id b b') (h' : Apart id b' b'') : Apart id b b'' where
  spared other hne := (h.spared other hne).trans (h'.spared other hne)
  ready other hne hm := h'.ready other hne (h.ready other hne hm)

theorem apart_note (id : ConsumerId) (b : Broker) (n : Note) : Apart id b (b.note n) :=
  ⟨fun _ _ => .of_eq rfl, fun _ _ hm => hm⟩

theorem apart_begin (b : Broker) (id : ConsumerId) : Apart id b (b.begin id).2 :=
  ⟨fun _ hne => spared_begin hne, fun _ hne hm => (steady_begin b id).ready hne hm⟩

theorem apart_resume (b : Broker) (id : ConsumerId) : Apart id b (b.resume id).2 :=
  ⟨fun _ hne => spared_resume hne, fun _ hne hm => (steady_resume b id).ready hne hm⟩

theorem apart_settle (b : Broker) (id : ConsumerId) (v : Verdict) :
    Apart id b (b.settle id v).2 :=
  ⟨fun _ hne => spared_settle hne v, fun _ hne hm => (steady_settle b id v).ready hne hm⟩

theorem apart_release (b : Broker) (id : ConsumerId) : Apart id b (b.release id) := by
  refine ⟨fun _ hne => spared_release hne, fun other hne hm => ?_⟩
  cases hc : b.consumer? id with
  | none => simpa [release, hc] using hm
  | some c =>
    obtain ⟨b₁, he, hsteady, -⟩ := release_forgets hc
    rw [he]
    exact hsteady.ready hne hm

theorem apart_runNext (b : Broker) (id : ConsumerId) : Apart id b (b.runNext id) := by
  rcases b.runNext_cases id with he | ⟨b', hb', he⟩
  · rw [he]
    exact .refl id b
  · have hcalled : Apart id b b' := by
      rcases hb' with rfl | rfl
      · exact apart_begin b id
      · exact apart_resume b id
    rcases he with he | ⟨a, he⟩
    · rwa [he]
    · rw [he]
      exact hcalled.trans (apart_note id b' _)

/-- Whoever sleeps has been left alone. -/
theorem Spared.asleep (h : Spared id b b') (hc : b'.consumer? id = some c)
    (hw : c.wait = .parked) : b.consumer? id = some c := by
  rcases h with he | ⟨d, -, -, he⟩
  · exact he ▸ hc
  · rw [hc] at he
    cases he
    unfold Consumer.roused at hw
    split at hw
    · cases hw
    · rename_i hp
      exact absurd hw hp

theorem Heedful.apart (h : b.Heedful) (ha : Apart id b b')
    (hown : ∀ c, b'.consumer? id = some c → c.wait = .parked → c.cancelled = true →
      id ∈ b'.ready) : b'.Heedful := by
  intro other c hc hw hcancel
  by_cases hne : other = id
  · exact hne ▸ hown c (hne ▸ hc) hw hcancel
  · exact ha.ready other hne (h other c ((ha.spared other hne).asleep hc hw) hw hcancel)

theorem Heedful.woken (h : b.Heedful) (hs : ∀ id, Steady id b b') (hall : ∀ id, Spared id b b') :
    b'.Heedful := by
  intro id c hc hw hcancel
  exact (hs (id + 1)).ready (Nat.ne_of_lt (Nat.lt_succ_self id))
    (h id c ((hall id).asleep hc hw) hw hcancel)

/-- Calls from outside, while no task runs. -/
abbrev Asks : Broker → Broker → Prop :=
  Relation.ReflTransGen fun b b' => ∃ id, Call id ⟨b, none⟩ ⟨b', none⟩

theorem Heedful.subscribe (h : b.Heedful) (topic : String) : (b.subscribe topic).2.Heedful := by
  intro other c hc hw hcancel
  rw [consumer?_subscribe] at hc
  split at hc
  · cases hc
    cases hw
  · exact h other c hc hw hcancel

theorem Heedful.settle (h : b.Heedful) (id : ConsumerId) (v : Verdict) :
    (b.settle id v).2.Heedful := by
  cases hc : b.consumer? id with
  | none => simpa [Broker.settle, hc] using h
  | some c =>
    cases hh : c.holding with
    | false =>
      rw [settle_idle hc hh]
      exact h
    | true =>
      rcases settle_cases hc hh v with ⟨e, f, he⟩ | ⟨s, f, -, he⟩
      · rw [he]
        exact h
      · rw [he]
        refine Heedful.woken ?_ (fun _ => steady_notify _ c.topic v.reason)
          (spared_notify _ c.topic v.reason)
        intro other d hd hw hcancel
        by_cases hne : other = id
        · rw [hne, consumer?_became_self] at hd
          cases hd
          exact hne ▸ h id c hc hw hcancel
        · rw [consumer?_became hne] at hd
          exact h other d hd hw hcancel

theorem Heedful.call (h : b.Heedful) (hcall : Call id ⟨b, none⟩ ⟨b', none⟩) : b'.Heedful := by
  cases hcall with
  | note | span | tick | arm => exact h
  | publish topic payload =>
    exact h.woken (fun _ => steady_publish _ topic payload) (spared_publish _ topic payload)
  | notify topic reason =>
    exact h.woken (fun _ => steady_notify _ topic reason) (spared_notify _ topic reason)
  | shutdown => exact h.woken (fun _ => steady_shutdown _) (spared_shutdown _)
  | subscribe topic => exact h.subscribe topic
  | enqueue other =>
    exact h.woken (fun _ => steady_enqueue _ other) fun i => .of_eq (consumer?_enqueue _ other i)
  | ask cancelled =>
    refine h.apart ⟨fun _ hne => spared_ask hne cancelled,
      fun _ hne hm => (steady_ask b id cancelled).ready hne hm⟩ ?_
    intro c hc hw
    cases hb : b.consumer? id with
    | none =>
      rw [ask_none hb, hb] at hc
      cases hc
    | some d =>
      rw [consumer?_ask hb] at hc
      cases hc
      cases hw
  | cancel =>
    refine h.apart ⟨fun _ hne => spared_cancel hne,
      fun _ hne hm => (steady_cancel b id).ready hne hm⟩ ?_
    intro c hc hw _
    cases hb : b.consumer? id with
    | none =>
      rw [cancel_none hb, hb] at hc
      cases hc
    | some d =>
      rw [consumer?_cancel hb] at hc
      cases hc
      have hparked : d.wait = .parked := hw
      simp only [cancel, hb, hparked, if_true]
      exact mem_enqueue _ id
  | abandon =>
    refine h.apart ⟨fun _ hne => spared_abandon hne,
      fun _ hne hm => (steady_abandon b id).ready hne hm⟩ ?_
    intro c hc hw
    rw [idle_abandon b id c hc] at hw
    cases hw
  | settle v => exact h.settle id v
  | release =>
    refine h.apart (apart_release b id) ?_
    intro c hc
    rw [consumer?_release] at hc
    cases hc

theorem Heedful.asks (h : b.Heedful) (ha : Asks b b') : b'.Heedful := by
  induction ha with
  | refl => exact h
  | tail _ hcall ih =>
    obtain ⟨id, hcall⟩ := hcall
    exact ih.call hcall

/-- Whoever falls asleep has not been cancelled. -/
theorem Sought.heeds {d : Consumer} {res : Option (Except BrokerError Bytes) × Broker}
    (h : Sought b id d d.asleep res) (hc : res.2.consumer? id = some c) (hw : c.wait = .parked) :
    c.cancelled = false := by
  cases h with
  | cancelled f j | failed f j | claimed f j =>
    rw [consumer?_became_self] at hc
    cases hc
    cases hw
  | nothing f j hfree =>
    rw [consumer?_became_self] at hc
    cases hc
    exact hfree

theorem begin_heeds (hc : (b.begin id).2.consumer? id = some c) (hw : c.wait = .parked) :
    c.cancelled = false := by
  cases hb : b.consumer? id with
  | none => simp [begin, hb] at hc
  | some d =>
    rcases begin_cases hb with ⟨-, he⟩ | ⟨-, hs⟩
    · rw [he, consumer?_setConsumer_self] at hc
      cases hc
      cases hw
    · exact hs.heeds hc hw

theorem resume_heeds (hc : (b.resume id).2.consumer? id = some c) (hw : c.wait = .parked) :
    c.cancelled = false := by
  cases hb : b.consumer? id with
  | none => simp [resume, hb] at hc
  | some d =>
    cases hcancel : d.cancelled with
    | true =>
      have hidle : c.wait = .idle := by
        rw [resume_cancelled hb hcancel] at hc
        dsimp only at hc
        split at hc
        · exact (resting_leave (consumer?_setConsumer_self ..)).idle c hc
        · exact (resting_leave hb).idle c hc
      rw [hw] at hidle
      cases hidle
    | false =>
      by_cases hwoken : d.wait = .woken
      · exact (resume_woken hb hcancel hwoken).heeds hc hw
      · rw [resume_asleep hb hcancel hwoken] at hc
        cases hb.symm.trans hc
        exact hcancel

theorem runNext_heeds (hc : (b.runNext id).consumer? id = some c) (hw : c.wait = .parked) :
    c.cancelled = false := by
  cases hb : b.consumer? id with
  | none => simp [runNext, hb] at hc
  | some d =>
    simp only [runNext, hb] at hc
    cases hd : d.wait with
    | idle =>
      simp only [hd] at hc
      cases hb.symm.trans hc
      rw [hd] at hw
      cases hw
    | asked =>
      simp only [hd] at hc
      split at hc
      · exact begin_heeds hc hw
      · exact begin_heeds (by simpa using hc) hw
    | parked | woken =>
      simp only [hd] at hc
      split at hc
      · exact resume_heeds hc hw
      · exact resume_heeds (by simpa using hc) hw

end Broker

namespace Session
open Broker

variable {s : Session} {b b' : Broker} {id : ConsumerId} {deaf : Bool} {p p' : Point}

/-- A run of a session that is cancelled is its last. -/
theorem run_cancelled (h : isCancelled b id = true) : (s.run b id).1 = none := by
  unfold run
  split
  · simp [serve, h]
  · split
    · rename_i b' hr
      cases resume_interrupted hr h
    · rename_i result b' hr
      cases resume_interrupted hr h
      rfl

theorem Act.apart (h : Act id deaf p p') : Apart id p.broker p'.broker := by
  cases h with
  | aside n hn => exact apart_note id _ n
  | ended | failed | read | arrived | said => exact apart_note id _ _
  | cancelled | pending | unknown | init | lost | unsaid => exact .refl id _
  | @settled _ b _ _ v _ _ hs | @unsettled _ b _ _ v _ _ _ hs =>
    have hsettle := apart_settle b id v
    rwa [hs] at hsettle
  | putBack => exact apart_settle _ id .nack
  | @begun _ b _ _ _ hs | @asleep _ b _ _ hs =>
    have hbegin := apart_begin b id
    rwa [hs] at hbegin
  | @resumed _ b _ _ _ hs | @still _ b _ _ hs =>
    have hresume := apart_resume b id
    rwa [hs] at hresume
  | closed => exact (apart_release _ id).trans (apart_note id _ _)

theorem Acts.apart (h : Acts id deaf p p') : Apart id p.broker p'.broker := by
  induction h with
  | refl => exact .refl id _
  | tail _ hact ih => exact ih.trans hact.apart

theorem Ran.apart {r : Option Session × Broker} (h : Ran s id p r) : Apart id p.broker r.2 := by
  cases h with
  | paused inlet position h => exact h.apart
  | gone inlet h => exact h.apart

theorem stage_not_last (s : Session) : s.stage.isLast = false := by
  unfold stage
  split <;> rfl

/-- A session that goes on after a run has not been cancelled. -/
theorem run_heeds {left : Session} (h : s.run b id = (some left, b')) :
    isCancelled b' id = false := by
  have hfree : isCancelled b id = false := by
    by_contra hcancel
    rw [Bool.not_eq_false] at hcancel
    have hnone := run_cancelled (s := s) hcancel
    rw [h] at hnone
    cases hnone
  have hran := s.run_ran b id
  rw [h] at hran
  cases hran with
  | paused inlet position hacts =>
    exact (hacts.same_cancelled (stage_not_last _)).trans hfree

end Session

namespace Service
open Broker

variable {s : Service} {id : ConsumerId}

theorem apart_run (s : Service) (id : ConsumerId) : Apart id s.broker (s.run id).broker := by
  cases hs : s.sessions.look id with
  | none =>
    have hrun : s.run id = { s with broker := s.broker.runNext id } := by simp [run, hs]
    rw [hrun]
    exact apart_runNext s.broker id
  | some session =>
    have hran := (session.run_ran { s.broker with span := session.span } id).apart
    cases hr : session.run { s.broker with span := session.span } id with
    | mk left b =>
      rw [hr] at hran
      rw [run_session hs hr]
      exact ⟨hran.spared, hran.ready⟩

/-- A task that has run and sleeps has not been cancelled. -/
theorem run_heeds (h : s.Orderly) {c : Consumer} (hc : (s.run id).broker.consumer? id = some c)
    (hw : c.wait = .parked) : c.cancelled = false := by
  cases hs : s.sessions.look id with
  | none =>
    have hrun : s.run id = { s with broker := s.broker.runNext id } := by simp [run, hs]
    rw [hrun] at hc
    exact runNext_heeds hc hw
  | some session =>
    cases hr : session.run { s.broker with span := session.span } id with
    | mk left b =>
      rw [run_session hs hr] at hc
      cases left with
      | none =>
        have hgone := h.run_gone hs (by rw [run_session hs hr]; exact Table.look_remove_self ..)
        rw [run_session hs hr] at hgone
        rw [hgone] at hc
        cases hc
      | some left =>
        have hfree := Session.run_heeds hr
        rwa [Session.isCancelled_eq (by exact hc)] at hfree

end Service

namespace Scene
open Broker

variable {s : Scene}

theorem asks_feed (s : Service) (id : ConsumerId) (change : Inlet → Inlet) :
    Asks s.broker (s.feed id change).broker := by
  unfold Service.feed
  split
  · exact .refl
  · dsimp only
    split
    · exact .single ⟨id, .enqueue id⟩
    · exact .refl

theorem asks_cancelSession (s : Service) (id : ConsumerId) :
    Asks s.broker (s.cancelSession id).broker := by
  unfold Service.cancelSession
  split
  · exact .refl
  · dsimp only
    split
    · exact .tail (.single ⟨id, .cancel⟩) ⟨id, .enqueue id⟩
    · exact .single ⟨id, .cancel⟩

/-- What is asked of a scene comes to its broker as calls. -/
theorem Performed.asks {a : Action} {s' : Scene} (h : Performed s a s') (ha : a.isOwn = true) :
    Asks s.broker s'.broker := by
  cases h with
  | published topic payload => exact .single ⟨0, .publish topic payload⟩
  | notified topic reason => exact .single ⟨0, .notify topic reason⟩
  | shutDown => exact .single ⟨0, .shutdown⟩
  | armed => exact .single ⟨0, .arm _⟩
  | subscribed topic => exact .single ⟨0, .subscribe topic⟩
  | @asked _ caller cancelled _ hp =>
    exact .single ⟨caller.id, .ask cancelled (idle_of_not_pending hp)⟩
  | @settled _ caller verdict => exact .single ⟨caller.id, .settle verdict⟩
  | @cancelled _ caller => exact .single ⟨caller.id, .cancel⟩
  | @aborted _ caller => exact .single ⟨caller.id, .abandon⟩
  | @dropped _ caller =>
    exact .tail (.single ⟨caller.id, .abandon⟩) ⟨caller.id, .release (idle_abandon _ _)⟩
  | opened topic => exact .tail (.single ⟨0, .subscribe topic⟩) ⟨0, .enqueue _⟩
  | @fed _ _ client change => exact asks_feed s.service client.id change
  | @hungUp _ client => exact asks_feed s.service client.id Inlet.close
  | @stopped _ client => exact asks_cancelSession s.service client.id
  | @deafened _ client =>
    change Asks s.broker (s.service.deafen client.id).broker
    rw [Service.deafen_broker]
    exact .refl
  | stored => cases ha
  | nothing => exact .refl

theorem Reachable.heedful (h : s.Reachable) : s.broker.Heedful := by
  induction h with
  | start flushOnInsert =>
    intro id c hc
    cases hc
  | tick _ t ih => exact ih
  | act _ ha ih => exact ih.asks ((performed _ _).asks ha)
  | @task s id service h hd ih =>
    obtain ⟨rest, hready, hbroker, -⟩ := Service.dequeue_some hd
    have hapart : Apart id service.broker (service.run id).broker := Service.apart_run service id
    intro other c hc hw hcancel
    by_cases hne : other = id
    · subst hne
      rw [Service.run_heeds (h.orderly.service.dequeued hd) hc hw] at hcancel
      cases hcancel
    · have hbefore : service.broker.consumer? other = some c :=
        (hapart.spared other hne).asleep hc hw
      rw [hbroker] at hbefore
      have hmem : other ∈ id :: rest := hready ▸ ih other c hbefore hw hcancel
      refine hapart.ready other hne ?_
      rw [hbroker]
      exact (List.mem_cons.mp hmem).resolve_left hne

end Scene

end TopicQueue

import TopicQueue.Proofs.Deeds
import TopicQueue.Proofs.Waits

namespace TopicQueue

/-- No call of the store fails by a fault, and none is counted. -/
def Faults.Unarmed (f : Faults) : Prop := ∀ call, f.trip call = (none, f)

namespace Store

variable {s : Store} {topic : String} {payload : Bytes} {rest : List Item}

/-- An open store gives out the first message of a topic that nobody has claimed. -/
theorem Sound.fetchNext_first (h : s.Sound) (ho : s.closed = false)
    (hq : s.queue topic = ⟨.ok payload :: rest, false⟩) :
    ∃ s', s.fetchNext topic = .ok (some payload, s') ∧ s'.closed = false := by
  have hanswer := (h.follows_fetchNext ho topic).answer
  simp only [serve, Queues.serve, queues, ho, hq, Queue.serve, Bool.false_eq_true, if_false]
    at hanswer
  cases hf : s.fetchNext topic with
  | error e => simp [hf] at hanswer
  | ok r =>
    obtain ⟨payload?, s'⟩ := r
    obtain rfl : payload? = some payload := by simpa [hf] using hanswer
    obtain ⟨-, -, key, value, rest', -, -, rfl⟩ := fetchNext_some hf
    exact ⟨_, rfl, ho⟩

theorem Sound.fetchNext_empty (h : s.Sound) (ho : s.closed = false)
    (hq : s.queue topic = ⟨[], false⟩) : s.fetchNext topic = .ok (none, s) := by
  have hanswer := (h.follows_fetchNext ho topic).answer
  simp only [serve, Queues.serve, queues, ho, hq, Queue.serve, Bool.false_eq_true, if_false]
    at hanswer
  cases hf : s.fetchNext topic with
  | error e => simp [hf] at hanswer
  | ok r =>
    obtain ⟨payload?, s'⟩ := r
    obtain rfl : payload? = none := by simpa [hf] using hanswer
    obtain ⟨rfl, -⟩ := fetchNext_none hf
    rfl

/-- A claim can be settled as long as the store is open. -/
theorem apply_claimed (ho : s.closed = false) (hc : (s.queue topic).claimed = true) (v : Verdict) :
    ∃ s', v.apply topic s = .ok s' ∧ s'.closed = false := by
  obtain ⟨key, hk⟩ := Option.isSome_iff_exists.mp hc
  cases v with
  | ack => exact ⟨s.dropClaimed topic key, by simp [Verdict.apply, commit, ho, hk, dropClaimed], ho⟩
  | nack => exact ⟨s.release topic, by simp [Verdict.apply, requeue, ho, hk, release], ho⟩

end Store

/-- The messages of a topic after a verdict on the first. -/
def Verdict.leaves (messages : List Bytes) : Verdict → List Bytes
  | .ack => messages.tail
  | .nack => messages

namespace Broker

/-- A broker in which nobody but one consumer, who stands as `c` or is gone, is registered for a
topic with these messages. -/
structure Lone (id : ConsumerId) (topic : String) (c : Option Consumer) (held : Bool)
    (messages : List Bytes) (ready : List ConsumerId) (b : Broker) : Prop where
  isOpen : b.store.closed = false
  sound : b.store.Sound
  unarmed : b.faults.Unarmed
  clock : ∃ t : Int64, b.clock = t.toInt
  queue : b.store.queue topic = ⟨messages.map .ok, held⟩
  consumer : b.consumer? id = c
  roster : (b.roster? topic).map (·.members) = c.map fun _ => [id]
  ready : b.ready = ready

variable {b : Broker} {id : ConsumerId} {topic : String} {c : Consumer} {c? : Option Consumer}
  {held : Bool} {messages : List Bytes} {ready : List ConsumerId} {payload : Bytes}

theorem call_unarmed {α : Type} (h : b.faults.Unarmed) (call : StoreCall) (topic : String)
    (act : Store → Except StoreError (α × Store)) :
    b.call call topic act =
      match act b.store with
      | .error e => (.error e, b.note (.called call topic (some e)))
      | .ok (a, s) => (.ok a, { b with store := s }.note (.called call topic none)) := by
  cases hs : act b.store <;> simp [Broker.call, h call, hs]

/-- A look at a topic that has a message for it. -/
theorem look_found {s : Store} (hu : b.faults.Unarmed) (hc : c.cancelled = false)
    (hf : b.store.fetchNext c.topic = .ok (some payload, s)) :
    b.look id c = (some (.ok payload), b.became b.faults
      [⟨b.span, .claimed id c.topic payload⟩, ⟨b.span, .called .fetchNext c.topic none⟩] s id
      { c with holding := true }.done) := by
  have hset : (b.setConsumer id c.alert).faults.Unarmed := hu
  have hf' : (b.setConsumer id c.alert).store.fetchNext c.topic = .ok (some payload, s) := hf
  rw [look_uncancelled b id hc, call_unarmed hset, hf']
  dsimp only
  rw [leave_waiting (c := { c.alert with holding := true }) ?_ rfl]
  · simp [Broker.became, setConsumer, Broker.note, Consumer.alert, Consumer.done]
  · exact consumer?_setConsumer_self _ id _

/-- A look at a topic that has none. -/
theorem look_unfound (hu : b.faults.Unarmed) (hc : c.cancelled = false)
    (hf : b.store.fetchNext c.topic = .ok (none, b.store)) :
    b.look id c = (none, b.became b.faults [⟨b.span, .called .fetchNext c.topic none⟩] b.store id
      c.alert) := by
  have hset : (b.setConsumer id c.alert).faults.Unarmed := hu
  have hf' : (b.setConsumer id c.alert).store.fetchNext c.topic = .ok (none, b.store) := hf
  rw [look_uncancelled b id hc, call_unarmed hset, hf']
  rfl

theorem seek_found {s : Store} (h : b.consumer? id = some c) (hu : b.faults.Unarmed)
    (hc : c.cancelled = false) (hf : b.store.fetchNext c.topic = .ok (some payload, s)) :
    b.seek id = (some (.ok payload), b.became b.faults
      [⟨b.span, .claimed id c.topic payload⟩, ⟨b.span, .called .fetchNext c.topic none⟩] s id
      { c with holding := true }.done) := by
  simp only [seek, h, look_found hu hc hf]

/-- A verdict that the store takes. -/
theorem settle_taken {s : Store} {v : Verdict} (h : b.consumer? id = some c)
    (hh : c.holding = true) (hu : b.faults.Unarmed) (hs : v.apply c.topic b.store = .ok s) :
    b.settle id v = (.ok (), (b.became b.faults
      [⟨b.span, v.record id c.topic⟩, ⟨b.span, .called v.call c.topic none⟩] s id
      { c with holding := false }).notify c.topic v.reason) := by
  rw [settle_holding h hh, call_unarmed hu, hs]
  rfl

namespace Lone

theorem note (h : Lone id topic c? held messages ready b) (n : Note) :
    Lone id topic c? held messages ready (b.note n) :=
  ⟨h.isOpen, h.sound, h.unarmed, h.clock, h.queue, h.consumer, h.roster, h.ready⟩

theorem set (h : Lone id topic (some c) held messages ready b) (c' : Consumer) :
    Lone id topic (some c') held messages ready (b.setConsumer id c') :=
  ⟨h.isOpen, h.sound, h.unarmed, h.clock, h.queue, consumer?_setConsumer_self .., h.roster,
    h.ready⟩

theorem became (h : Lone id topic (some c) held messages ready b) (c' : Consumer) (j : Journal)
    {s : Store} {held' : Bool} {messages' : List Bytes} (ho : s.closed = false) (hs : s.Sound)
    (hq : s.queue topic = ⟨messages'.map .ok, held'⟩) :
    Lone id topic (some c') held' messages' ready (b.became b.faults j s id c') :=
  ⟨ho, hs, h.unarmed, h.clock, hq, Table.look_put_self .., h.roster, h.ready⟩

theorem scheduled (h : Lone id topic c? held messages ready b) (ready' : List ConsumerId) :
    Lone id topic c? held messages ready' { b with ready := ready' } :=
  ⟨h.isOpen, h.sound, h.unarmed, h.clock, h.queue, h.consumer, h.roster, rfl⟩

/-- Its task is the only one there is. -/
theorem enqueue (h : Lone id topic c? held messages ready b) (hr : ready = [] ∨ ready = [id]) :
    Lone id topic c? held messages [id] (b.enqueue id) := by
  have hready : (b.enqueue id).ready = [id] := by
    unfold Broker.enqueue
    rcases hr with rfl | rfl <;> simp [h.ready]
  have hsame : b.enqueue id = { b with ready := [id] } := by
    rw [← hready]
    unfold Broker.enqueue
    split <;> rfl
  rw [hsame]
  exact h.scheduled [id]

theorem spanned (h : Lone id topic c? held messages ready b) (span : Option RequestSpan) :
    Lone id topic c? held messages ready { b with span } :=
  ⟨h.isOpen, h.sound, h.unarmed, h.clock, h.queue, h.consumer, h.roster, h.ready⟩

theorem ticked (h : Lone id topic c? held messages ready b) (t : Int64) :
    Lone id topic c? held messages ready { b with clock := t.toInt } :=
  ⟨h.isOpen, h.sound, h.unarmed, ⟨t, rfl⟩, h.queue, h.consumer, h.roster, h.ready⟩

/-- Who holds a message has one that is stored. -/
theorem held_cons (h : Lone id topic c? true messages ready b) :
    ∃ payload rest, messages = payload :: rest := by
  have hclaimed : (b.store.queue topic).claimed = true := by rw [h.queue]
  obtain ⟨key, hk⟩ := Option.isSome_iff_exists.mp hclaimed
  obtain ⟨value, rest, ht⟩ := h.sound.claimed_first topic key hk
  cases messages with
  | nil =>
    have he := congrArg Queue.entries h.queue
    simp [Store.queue, ht] at he
  | cons payload rest => exact ⟨payload, rest, rfl⟩

/-- Nobody waits, and so nobody is woken. -/
theorem notify (h : Lone id topic c? held messages ready b)
    (hw : ∀ c, c? = some c → c.waiting = false) (reason : WakeReason) :
    Lone id topic c? held messages ready (b.notify topic reason) := by
  rcases b.notify_cases topic reason with ⟨n, -, he, -⟩ | ⟨other, c, r, hr, hm, hc, hwaits, -⟩
  · rw [he]
    exact h.note n
  · have hroster := h.roster
    rw [hr, Option.map_some] at hroster
    cases hc' : c? with
    | none => simp [hc'] at hroster
    | some d =>
      rw [hc', Option.map_some, Option.some.injEq] at hroster
      rw [hroster, List.mem_singleton] at hm
      rw [hm, h.consumer, hc', Option.some.injEq] at hc
      rw [← hc, hw d hc'] at hwaits
      cases hwaits

/-- A sleeper is woken. -/
theorem notify_parked
    (h : Lone id topic (some { topic, waiting := true, wait := .parked }) held messages ready b)
    (hready : ready = [] ∨ ready = [id]) (reason : WakeReason) :
    Lone id topic (some { topic, wait := .woken }) held messages [id] (b.notify topic reason) := by
  have hroster := h.roster
  cases hr : b.roster? topic with
  | none => simp [hr] at hroster
  | some r =>
    rw [hr, Option.map_some, Option.map_some, Option.some.injEq] at hroster
    have hwaits : r.firstWaiting? b.isWaiting = some id := by
      simp [Roster.firstWaiting?, hroster, isWaiting, h.consumer]
    have hnotify : b.notify topic reason =
        ((b.setConsumer id { topic, wait := .woken }).enqueue id).note (.woke id topic reason) := by
      simp [Broker.notify, hr, hwaits, wake, h.consumer]
    rw [hnotify]
    exact ((h.set { topic, wait := .woken }).enqueue hready).note _

theorem settle (h : Lone id topic (some c) true messages ready b) (ht : c.topic = topic)
    (hh : c.holding = true) (hw : c.waiting = false) (v : Verdict) :
    ∃ b', b.settle id v = (.ok (), b') ∧
      Lone id topic (some { c with holding := false }) false (v.leaves messages) ready b' := by
  have hclaimed : (b.store.queue topic).claimed = true := by rw [h.queue]
  obtain ⟨s, hs, ho⟩ := Store.apply_claimed h.isOpen hclaimed v
  obtain ⟨hsound, -, hq⟩ := h.sound.applied hs
  have hleft : s.queue topic = ⟨(v.leaves messages).map .ok, false⟩ := by
    rw [hq, Function.update_self, h.queue]
    cases v <;> simp [Store.left, Verdict.leaves]
  have hbecame := h.became { c with holding := false }
    [⟨b.span, v.record id c.topic⟩, ⟨b.span, .called v.call c.topic none⟩] ho hsound hleft
  subst ht
  exact ⟨_, settle_taken h.consumer hh h.unarmed hs, hbecame.notify (by rintro _ ⟨⟩; exact hw) v.reason⟩

/-- A look at a topic that has a message. -/
theorem look_first (h : Lone id topic (some c) false (payload :: messages) ready b)
    (ht : c.topic = topic) (hc : c.cancelled = false) :
    ∃ b', b.look id c = (some (.ok payload), b') ∧
      Lone id topic (some { c with holding := true }.done) true (payload :: messages) ready b' := by
  obtain ⟨s, hf, ho⟩ := h.sound.fetchNext_first h.isOpen h.queue
  obtain ⟨hsound, -, -, hq⟩ := h.sound.fetched hf
  have hclaimed : s.queue topic = ⟨(payload :: messages).map .ok, true⟩ := by
    rw [hq, Function.update_self, h.queue]
  subst ht
  exact ⟨_, look_found h.unarmed hc hf, h.became { c with holding := true }.done _ ho hsound hclaimed⟩

theorem look_empty (h : Lone id topic (some c) false [] ready b) (ht : c.topic = topic)
    (hc : c.cancelled = false) :
    ∃ b', b.look id c = (none, b') ∧ Lone id topic (some c.alert) false [] ready b' := by
  have hf := h.sound.fetchNext_empty h.isOpen h.queue
  subst ht
  exact ⟨_, look_unfound h.unarmed hc hf, h.became c.alert _ h.isOpen h.sound h.queue⟩

/-- A call for a message gets the first. -/
theorem seek_first (h : Lone id topic (some c) false (payload :: messages) ready b)
    (ht : c.topic = topic) (hc : c.cancelled = false) :
    ∃ b', b.seek id = (some (.ok payload), b') ∧
      Lone id topic (some { c with holding := true }.done) true (payload :: messages) ready b' := by
  obtain ⟨b', hlook, hb'⟩ := h.look_first ht hc
  refine ⟨b', ?_, hb'⟩
  simp only [seek, h.consumer, hlook]

/-- Where there is none, it falls asleep. -/
theorem seek_empty (h : Lone id topic (some c) false [] ready b) (ht : c.topic = topic)
    (hc : c.cancelled = false) (hp : c.permit = false) :
    ∃ b', b.seek id = (none, b') ∧ Lone id topic (some c.asleep) false [] ready b' := by
  obtain ⟨b', hlook, hb'⟩ := h.look_empty ht hc
  refine ⟨b'.park id, ?_, ?_⟩
  · simp [seek, h.consumer, hlook, hp]
  · have hpark : b'.park id = b'.setConsumer id c.asleep := by
      simp [Broker.park, hb'.consumer, Consumer.asleep]
    rw [hpark]
    exact hb'.set c.asleep

theorem begin_first (h : Lone id topic (some { topic }) false (payload :: messages) ready b) :
    ∃ b', b.begin id = (some (.ok payload), b') ∧
      Lone id topic (some { topic, holding := true }) true (payload :: messages) ready b' := by
  obtain ⟨b', hseek, hb'⟩ := h.seek_first rfl rfl
  exact ⟨b', by simp [Broker.begin, h.consumer, hseek], hb'⟩

theorem begin_empty (h : Lone id topic (some { topic }) false [] ready b) :
    ∃ b', b.begin id = (none, b') ∧
      Lone id topic (some { topic, waiting := true, wait := .parked }) false [] ready b' := by
  obtain ⟨b', hseek, hb'⟩ := h.seek_empty rfl rfl rfl
  exact ⟨b', by simp [Broker.begin, h.consumer, hseek], hb'⟩

theorem begin_holding (h : Lone id topic (some { topic, holding := true }) true messages ready b) :
    ∃ b', b.begin id = (some (.error .alreadyHolding), b') ∧
      Lone id topic (some { topic, holding := true }) true messages ready b' :=
  ⟨b.setConsumer id { topic, holding := true }, by simp [Broker.begin, h.consumer], h.set _⟩

theorem resume_first
    (h : Lone id topic (some { topic, wait := .woken }) false (payload :: messages) ready b) :
    ∃ b', b.resume id = (some (.ok payload), b') ∧
      Lone id topic (some { topic, holding := true }) true (payload :: messages) ready b' := by
  obtain ⟨b', hseek, hb'⟩ := (h.note (.woken id topic)).seek_first rfl rfl
  exact ⟨b', by simp [Broker.resume, h.consumer, hseek], hb'⟩

theorem resume_empty (h : Lone id topic (some { topic, wait := .woken }) false [] ready b) :
    ∃ b', b.resume id = (none, b') ∧
      Lone id topic (some { topic, waiting := true, wait := .parked }) false [] ready b' := by
  obtain ⟨b', hseek, hb'⟩ := (h.note (.woken id topic)).seek_empty rfl rfl rfl
  exact ⟨b', by simp [Broker.resume, h.consumer, hseek], hb'⟩

theorem forget (h : Lone id topic (some c) held messages ready b) :
    Lone id topic none held messages ready (b.forget id topic) := by
  refine ⟨h.isOpen, h.sound, h.unarmed, h.clock, h.queue, Table.look_remove_self .., ?_, h.ready⟩
  rw [roster?_forget, if_pos rfl]
  have hroster := h.roster
  cases hr : b.roster? topic with
  | none => rfl
  | some r =>
    rw [hr, Option.map_some, Option.map_some, Option.some.injEq] at hroster
    have hempty : (r.strike id).isEmpty = true := by simp [Roster.strike, Roster.isEmpty, hroster]
    simp [Option.filter, hempty]

/-- The end of the consumer leaves its messages, and no claim. -/
theorem release (h : Lone id topic (some { topic, holding := held }) held messages ready b) :
    Lone id topic none false messages ready (b.release id) := by
  cases held with
  | false =>
    rw [release_idle h.consumer rfl]
    exact h.forget
  | true =>
    obtain ⟨b', hsettle, hb'⟩ := h.settle rfl rfl rfl .nack
    rw [release_holding h.consumer rfl, hsettle]
    exact (hb'.note (.releaseRequeued id topic)).forget

/-- What publishing does before it wakes anybody. -/
theorem publish_eq (h : Lone id topic c? held messages ready b) (payload : Bytes) :
    ∃ b' : Broker, b.publish topic payload = (.ok (), b'.notify topic .publish) ∧
      Lone id topic c? held (messages ++ [payload]) ready b' := by
  obtain ⟨t, hclock⟩ := h.clock
  have hinsert : b.store.insert topic payload b.clock =
      .ok (b.store.append topic (StoredEntry.encode ⟨payload, b.clock⟩)) := by
    simp [Store.insert, h.isOpen]
  obtain ⟨hsound, hq⟩ := h.sound.inserted ⟨t, hclock⟩ hinsert
  have hqueue : (b.store.append topic (StoredEntry.encode ⟨payload, b.clock⟩)).queue topic =
      ⟨(messages ++ [payload]).map .ok, held⟩ := by
    rw [hq, Function.update_self, h.queue, List.map_append]
    rfl
  refine ⟨({ b with store := b.store.append topic (StoredEntry.encode ⟨payload, b.clock⟩) }.note
    (.called .insert topic none)).note (.stored topic payload), ?_, ?_⟩
  · rw [publish, call_unarmed h.unarmed, hinsert]
    rfl
  · exact ⟨h.isOpen, hsound, h.unarmed, h.clock, hqueue, h.consumer, h.roster, h.ready⟩

/-- A message that is published while nobody sleeps is put behind the others. -/
theorem publish (h : Lone id topic c? held messages ready b)
    (hw : ∀ c, c? = some c → c.waiting = false) (payload : Bytes) :
    Lone id topic c? held (messages ++ [payload]) ready (b.publish topic payload).2 := by
  obtain ⟨b', he, hb'⟩ := h.publish_eq payload
  rw [he]
  exact hb'.notify hw .publish

/-- A sleeper is woken by it. -/
theorem publish_parked
    (h : Lone id topic (some { topic, waiting := true, wait := .parked }) held messages ready b)
    (hready : ready = [] ∨ ready = [id]) (payload : Bytes) :
    Lone id topic (some { topic, wait := .woken }) held (messages ++ [payload]) [id]
      (b.publish topic payload).2 := by
  obtain ⟨b', he, hb'⟩ := h.publish_eq payload
  rw [he]
  exact hb'.notify_parked hready .publish

end Lone

end Broker

end TopicQueue

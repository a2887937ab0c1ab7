import TopicQueue.Proofs.Calls

namespace TopicQueue

namespace Broker

/-- A broker in which nobody is forgotten, while this task runs. -/
structure Attended (b : Broker) (running : Option ConsumerId) : Prop where
  fresh : ∀ id c, b.consumer? id = some c → id < b.nextId
  listed : ∀ id c, b.consumer? id = some c → ∃ r, b.roster? c.topic = some r ∧ id ∈ r.members
  enrolled : ∀ topic r, b.roster? topic = some r → ∀ id ∈ r.members,
    ∃ c, b.consumer? id = some c ∧ c.topic = topic
  flagged : ∀ id c, b.consumer? id = some c → (c.waiting = true ↔ c.wait = .parked)
  queued : ∀ id c, b.consumer? id = some c → c.wait = .asked ∨ c.wait = .woken →
    id ∈ b.ready ∨ running = some id

/-- One consumer is changed and no other, in a broker that is else the same to all who wait. -/
structure Shifted (b b' : Broker) (id : ConsumerId) (c c' : Consumer) : Prop where
  before : b.consumer? id = some c
  after : ∀ other, b'.consumer? other = if other = id then some c' else b.consumer? other
  topic : c'.topic = c.topic
  topics : b'.topics = b.topics
  nextId : b'.nextId = b.nextId
  ready : ∀ other, other ≠ id → other ∈ b.ready → other ∈ b'.ready

variable {b b' : Broker} {id other : ConsumerId} {c c' : Consumer} {r : Option ConsumerId}
  {topic : String}

theorem Shifted.roster? (h : Shifted b b' id c c') (topic : String) :
    b'.roster? topic = b.roster? topic := by
  rw [Broker.roster?, h.topics, Broker.roster?]

theorem Shifted.after_self (h : Shifted b b' id c c') : b'.consumer? id = some c' := by
  rw [h.after, if_pos rfl]

theorem Shifted.after_of_ne (h : Shifted b b' id c c') (hne : other ≠ id) :
    b'.consumer? other = b.consumer? other := by
  rw [h.after, if_neg hne]

theorem shifted_setConsumer (h : b.consumer? id = some c) (c' : Consumer)
    (ht : c'.topic = c.topic) :
    Shifted b (b.setConsumer id c') id c c' :=
  ⟨h, fun other => consumer?_setConsumer b id other c', ht, rfl, rfl, fun _ _ hm => hm⟩

theorem shifted_became (h : b.consumer? id = some c) (c' : Consumer) (ht : c'.topic = c.topic)
    (f : Faults) (j : Journal) (s : Store) : Shifted b (b.became f j s id c') id c c' :=
  ⟨h, fun other => Table.look_put b.consumers other id c', ht, rfl, rfl, fun _ _ hm => hm⟩

theorem Shifted.set (h : Shifted b b' id c c') (d : Consumer) (ht : d.topic = c.topic) :
    Shifted b (b'.setConsumer id d) id c d where
  before := h.before
  after other := by
    rw [consumer?_setConsumer, h.after]
    split <;> rfl
  topic := ht
  topics := h.topics
  nextId := h.nextId
  ready := h.ready

theorem shifted_self (h : b.consumer? id = some c) : Shifted b b id c c where
  before := h
  after other := by
    split
    · rename_i ho
      rw [ho, h]
    · rfl
  topic := rfl
  topics := rfl
  nextId := rfl
  ready _ _ hm := hm

/-- The broker with a consumer's task taken off the queue. -/
theorem shifted_off (h : b.consumer? id = some c) :
    Shifted b { b with ready := b.ready.filter (· != id) } id c c :=
  { shifted_self h with ready := fun other hne hm => by simp [hm, hne] }

theorem mem_enqueue (b : Broker) (id : ConsumerId) : id ∈ (b.enqueue id).ready := by
  unfold enqueue
  split
  · assumption
  · simp

theorem mem_enqueue_of_mem (id : ConsumerId) (h : other ∈ b.ready) :
    other ∈ (b.enqueue id).ready := by
  unfold enqueue
  split
  · exact h
  · exact List.mem_append_left _ h

theorem enqueue_consumers (b : Broker) (id : ConsumerId) :
    (b.enqueue id).consumers = b.consumers := by
  unfold enqueue
  split <;> rfl

theorem enqueue_topics (b : Broker) (id : ConsumerId) : (b.enqueue id).topics = b.topics := by
  unfold enqueue
  split <;> rfl

theorem enqueue_nextId (b : Broker) (id : ConsumerId) : (b.enqueue id).nextId = b.nextId := by
  unfold enqueue
  split <;> rfl

theorem Shifted.enqueue (h : Shifted b b' id c c') : Shifted b (b'.enqueue id) id c c' where
  before := h.before
  after other := (consumer?_enqueue b' id other).trans (h.after other)
  topic := h.topic
  topics := (enqueue_topics b' id).trans h.topics
  nextId := (enqueue_nextId b' id).trans h.nextId
  ready other hne hm := mem_enqueue_of_mem id (h.ready other hne hm)

/-- A consumer may change as long as it is still looked after. -/
theorem Attended.shift (h : b.Attended r) (hs : Shifted b b' id c c')
    (hflag : c'.waiting = true ↔ c'.wait = .parked)
    (hqueue : c'.wait = .asked ∨ c'.wait = .woken → id ∈ b'.ready ∨ r = some id) :
    b'.Attended r := by
  constructor
  case fresh =>
    intro other d hd
    rw [hs.nextId]
    by_cases hne : other = id
    · exact hne ▸ h.fresh id c hs.before
    · exact h.fresh other d ((hs.after_of_ne hne).symm.trans hd)
  case listed =>
    intro other d hd
    rw [hs.roster?]
    by_cases hne : other = id
    · rw [hne, hs.after_self] at hd
      cases hd
      rw [hs.topic, hne]
      exact h.listed id c hs.before
    · exact h.listed other d ((hs.after_of_ne hne).symm.trans hd)
  case enrolled =>
    intro topic roster hr other hm
    rw [hs.roster?] at hr
    obtain ⟨d, hd, ht⟩ := h.enrolled topic roster hr other hm
    by_cases hne : other = id
    · rw [hne, hs.before] at hd
      cases hd
      exact ⟨c', hne ▸ hs.after_self, hs.topic.trans ht⟩
    · exact ⟨d, (hs.after_of_ne hne).trans hd, ht⟩
  case flagged =>
    intro other d hd
    by_cases hne : other = id
    · rw [hne, hs.after_self] at hd
      cases hd
      exact hflag
    · exact h.flagged other d ((hs.after_of_ne hne).symm.trans hd)
  case queued =>
    intro other d hd hw
    by_cases hne : other = id
    · rw [hne, hs.after_self] at hd
      cases hd
      exact hne ▸ hqueue hw
    · rcases h.queued other d ((hs.after_of_ne hne).symm.trans hd) hw with hm | hr
      · exact .inl (hs.ready other hne hm)
      · exact .inr hr

/-- Whoever does not sleep has no flag up. -/
theorem Attended.unflagged (h : b.Attended r) (hc : b.consumer? id = some c)
    (hw : c.wait ≠ .parked) : c.waiting = false := by
  cases hf : c.waiting with
  | false => rfl
  | true => exact absurd ((h.flagged id c hc).mp hf) hw

/-- A broker with other tasks in its queue, but those that it had before. -/
theorem Attended.same (h : b.Attended r) (hc : b'.consumers = b.consumers)
    (ht : b'.topics = b.topics) (hn : b'.nextId = b.nextId)
    (hready : ∀ other ∈ b.ready, other ∈ b'.ready) : b'.Attended r := by
  have hconsumer : ∀ other, b'.consumer? other = b.consumer? other := by
    intro other
    rw [consumer?, hc, consumer?]
  have hroster : ∀ topic, b'.roster? topic = b.roster? topic := by
    intro topic
    rw [roster?, ht, roster?]
  constructor
  case fresh => simpa only [hconsumer, hn] using h.fresh
  case listed => simpa only [hconsumer, hroster] using h.listed
  case enrolled => simpa only [hconsumer, hroster] using h.enrolled
  case flagged => simpa only [hconsumer] using h.flagged
  case queued =>
    intro other d hd hw
    rw [hconsumer] at hd
    exact (h.queued other d hd hw).imp_left (hready other)

/-- To wake a consumer whose flag is up is to take the flag down and queue its task. -/
theorem Attended.wake_eq (h : b.Attended r) (hc : b.consumer? id = some c)
    (hw : c.waiting = true) :
    b.wake id = (b.setConsumer id { c with waiting := false, wait := .woken }).enqueue id := by
  unfold wake
  rw [hc]
  exact if_pos ((h.flagged id c hc).mp hw)

theorem Attended.shifted_wake (h : b.Attended r) (hc : b.consumer? id = some c)
    (hw : c.waiting = true) :
    Shifted b (b.wake id) id c { c with waiting := false, wait := .woken } := by
  rw [h.wake_eq hc hw]
  exact (shifted_setConsumer hc { c with waiting := false, wait := .woken } rfl).enqueue

theorem Attended.wake (h : b.Attended r) (hc : b.consumer? id = some c) (hw : c.waiting = true) :
    (b.wake id).Attended r := by
  refine h.shift (h.shifted_wake hc hw) (by simp) fun _ => .inl ?_
  rw [h.wake_eq hc hw]
  exact mem_enqueue _ id

theorem Attended.notify (h : b.Attended r) (topic : String) (reason : WakeReason) :
    (b.notify topic reason).Attended r := by
  rcases b.notify_cases topic reason with ⟨n, -, he, -⟩ | ⟨id, c, roster, -, -, hc, hw, he⟩
  · rw [he]
    exact h.same rfl rfl rfl fun _ hm => hm
  · rw [he]
    exact (h.wake hc hw).same rfl rfl rfl fun _ hm => hm

theorem consumer?_subscribe (b : Broker) (topic : String) (other : ConsumerId) :
    (b.subscribe topic).2.consumer? other =
      if other = b.nextId then some { topic } else b.consumer? other :=
  Table.look_put b.consumers other b.nextId { topic }

theorem roster?_subscribe (b : Broker) (topic other : String) :
    (b.subscribe topic).2.roster? other =
      if other = topic then some (((b.roster? topic).getD { topic }).enrol b.nextId)
      else b.roster? other :=
  Table.look_put b.topics other topic _

theorem Attended.subscribe (h : b.Attended r) (topic : String) :
    (b.subscribe topic).2.Attended r := by
  have hnew : ∀ {other d}, b.consumer? other = some d → other ≠ b.nextId :=
    fun hd => Nat.ne_of_lt (h.fresh _ _ hd)
  constructor
  case fresh =>
    intro other d hd
    rw [consumer?_subscribe] at hd
    split at hd
    · rename_i ho
      rw [ho]
      exact Nat.lt_succ_self _
    · exact Nat.lt_succ_of_lt (h.fresh other d hd)
  case listed =>
    intro other d hd
    rw [consumer?_subscribe] at hd
    rw [roster?_subscribe]
    split at hd
    · rename_i ho
      cases hd
      exact ⟨_, if_pos rfl, by simp [Roster.enrol, ho]⟩
    · obtain ⟨roster, hr, hm⟩ := h.listed other d hd
      by_cases ht : d.topic = topic
      · refine ⟨_, if_pos ht, ?_⟩
        rw [← ht, hr]
        exact List.mem_append_left _ hm
      · exact ⟨roster, (if_neg ht).trans hr, hm⟩
  case enrolled =>
    intro t roster hr other hm
    rw [roster?_subscribe] at hr
    rw [consumer?_subscribe]
    split at hr
    · rename_i ht
      cases hr
      rcases List.mem_append.mp hm with hm | hm
      · cases hb : b.roster? topic with
        | none => simp [hb] at hm
        | some roster =>
          rw [hb] at hm
          obtain ⟨d, hd, hdt⟩ := h.enrolled topic roster hb other hm
          exact ⟨d, (if_neg (hnew hd)).trans hd, hdt.trans ht.symm⟩
      · exact ⟨{ topic }, if_pos (List.mem_singleton.mp hm), ht.symm⟩
    · obtain ⟨d, hd, hdt⟩ := h.enrolled t roster hr other hm
      exact ⟨d, (if_neg (hnew hd)).trans hd, hdt⟩
  case flagged =>
    intro other d hd
    rw [consumer?_subscribe] at hd
    split at hd
    · cases hd
      simp
    · exact h.flagged other d hd
  case queued =>
    intro other d hd hw
    rw [consumer?_subscribe] at hd
    split at hd
    · cases hd
      simp at hw
    · exact h.queued other d hd hw

theorem consumer?_forget_eq (b : Broker) (id : ConsumerId) (topic : String) (other : ConsumerId) :
    (b.forget id topic).consumer? other = if other = id then none else b.consumer? other :=
  Table.look_remove b.consumers other id

/-- A roster without a consumer; an empty one is none. -/
theorem roster?_forget (b : Broker) (id : ConsumerId) (topic other : String) :
    (b.forget id topic).roster? other =
      if other = topic then
        ((b.roster? topic).map (·.strike id)).filter fun r => !r.isEmpty
      else b.roster? other := by
  simp only [forget, unsubscribe, note, roster?]
  cases hb : b.topics.look topic with
  | none =>
    dsimp only
    split
    · rename_i ho
      rw [ho, hb]
      rfl
    · rfl
  | some roster =>
    dsimp only
    split
    · rename_i he
      simp [Table.look_remove, Option.filter, he]
    · rename_i he
      simp [Table.look_put, Option.filter, he]

theorem Attended.forget (h : b.Attended r) (hc : b.consumer? id = some c) :
    (b.forget id c.topic).Attended r := by
  have hkept : ∀ {other d}, (b.forget id c.topic).consumer? other = some d →
      other ≠ id ∧ b.consumer? other = some d := by
    intro other d hd
    rw [consumer?_forget_eq] at hd
    split at hd
    · cases hd
    · rename_i hne
      exact ⟨hne, hd⟩
  have hforget : ∀ {other}, other ≠ id →
      (b.forget id c.topic).consumer? other = b.consumer? other := by
    intro other hne
    rw [consumer?_forget_eq, if_neg hne]
  constructor
  case fresh => exact fun other d hd => h.fresh other d (hkept hd).2
  case listed =>
    intro other d hd
    obtain ⟨hne, hd⟩ := hkept hd
    obtain ⟨roster, hr, hm⟩ := h.listed other d hd
    rw [roster?_forget]
    by_cases ht : d.topic = c.topic
    · have hstruck : other ∈ (roster.strike id).members := by simp [Roster.strike, hm, hne]
      have hfull : (roster.strike id).isEmpty = false := by
        simpa [Roster.isEmpty] using List.ne_nil_of_mem hstruck
      refine ⟨roster.strike id, ?_, hstruck⟩
      rw [if_pos ht, ← ht, hr]
      simp [Option.filter, hfull]
    · exact ⟨roster, (if_neg ht).trans hr, hm⟩
  case enrolled =>
    intro t roster hr other hm
    rw [roster?_forget] at hr
    split at hr
    · rename_i ht
      obtain ⟨hr, -⟩ := Option.filter_eq_some_iff.mp hr
      obtain ⟨roster, hb, rfl⟩ := Option.map_eq_some_iff.mp hr
      obtain ⟨hm, hne⟩ := List.mem_filter.mp hm
      obtain ⟨d, hd, hdt⟩ := h.enrolled c.topic roster hb other hm
      exact ⟨d, (hforget (by simpa using hne)).trans hd, hdt.trans ht.symm⟩
    · rename_i ht
      obtain ⟨d, hd, hdt⟩ := h.enrolled t roster hr other hm
      have hne : other ≠ id := by
        rintro rfl
        rw [hc] at hd
        cases hd
        exact ht hdt.symm
      exact ⟨d, (hforget hne).trans hd, hdt⟩
  case flagged => exact fun other d hd => h.flagged other d (hkept hd).2
  case queued => exact fun other d hd hw => h.queued other d (hkept hd).2 hw

end Broker

end TopicQueue

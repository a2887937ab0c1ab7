import TopicQueue.Proofs.Deeds

namespace TopicQueue

/-- A call of the store, and how it failed if it did. -/
structure Errand where
  call : StoreCall
  topic : String
  failure : Option StoreError
  deriving DecidableEq, Repr

def Note.errand? : Note → Option Errand
  | .called call topic failure => some ⟨call, topic, failure⟩
  | _ => none

theorem Note.errand?_aside {n : Note} (h : n.isAside = true) : n.errand? = none := by
  cases n <;> first | rfl | cases h

namespace Broker

/-- The latest first. -/
def errands (b : Broker) : List Errand := b.notes.filterMap Note.errand?

/-- The store has been asked for entries of a topic, so many times at most, and for nothing else. -/
def Fetches (topic : String) (n : Nat) (b b' : Broker) : Prop :=
  ∃ new : List Errand, b'.errands = new ++ b.errands ∧ new.length ≤ n ∧
    ∀ e ∈ new, e.call = .fetchNext ∧ e.topic = topic

variable {b b' b'' : Broker} {id : ConsumerId} {c : Consumer} {topic : String} {m n : Nat}

theorem errands_note {k : Note} (h : k.errand? = none) (b : Broker) :
    (b.note k).errands = b.errands :=
  List.filterMap_cons_none h

theorem errands_called (b : Broker) (call : StoreCall) (topic : String)
    (failure : Option StoreError) :
    (b.note (.called call topic failure)).errands = ⟨call, topic, failure⟩ :: b.errands :=
  rfl

theorem errands_enqueue (b : Broker) (id : ConsumerId) : (b.enqueue id).errands = b.errands := by
  unfold enqueue
  split <;> rfl

theorem errands_wake (b : Broker) (id : ConsumerId) : (b.wake id).errands = b.errands := by
  unfold wake
  split
  · rfl
  · split
    · exact errands_enqueue (b.setConsumer id _) id
    · rfl

theorem errands_notify (b : Broker) (topic : String) (reason : WakeReason) :
    (b.notify topic reason).errands = b.errands := by
  unfold notify
  split
  · exact errands_note rfl b
  · split
    · exact errands_note rfl b
    · exact (errands_note rfl _).trans (errands_wake b _)

theorem errands_leave (b : Broker) (id : ConsumerId) : (b.leave id).errands = b.errands := by
  unfold leave
  split
  · rfl
  · dsimp only
    split
    · rfl
    · exact errands_notify (b.setConsumer id _) _ _

theorem errands_park (b : Broker) (id : ConsumerId) : (b.park id).errands = b.errands := by
  unfold park
  split <;> rfl

theorem errands_forget (b : Broker) (id : ConsumerId) (topic : String) :
    (b.forget id topic).errands = b.errands :=
  errands_note rfl _

/-- Settling a message is one errand, for the topic of whoever holds it. -/
theorem errands_settle (hc : b.consumer? id = some c) (hh : c.holding = true) (v : Verdict) :
    ∃ failure, (b.settle id v).2.errands = ⟨v.call, c.topic, failure⟩ :: b.errands := by
  rcases settle_cases hc hh v with ⟨e, f, he⟩ | ⟨s, f, -, he⟩
  · exact ⟨some e, by rw [he, errands_called]; rfl⟩
  · refine ⟨none, ?_⟩
    rw [he, errands_notify]
    cases v <;> rfl

/-- Without a message there is nothing to settle, and no errand. -/
theorem errands_settle_idle (h : ∀ c, b.consumer? id = some c → c.holding = false) (v : Verdict) :
    (b.settle id v).2 = b := by
  cases hc : b.consumer? id with
  | none => simp [settle, hc]
  | some c => rw [settle_idle hc (h c hc)]

theorem Fetches.of_eq (h : b'.errands = b.errands) : Fetches topic n b b' :=
  ⟨[], h, Nat.zero_le n, nofun⟩

theorem Fetches.trans (h : Fetches topic m b b') (h' : Fetches topic n b' b'') :
    Fetches topic (m + n) b b'' := by
  obtain ⟨new, he, hlength, hnew⟩ := h
  obtain ⟨new', he', hlength', hnew'⟩ := h'
  refine ⟨new' ++ new, by rw [he', he, List.append_assoc], ?_, ?_⟩
  · rw [List.length_append]
    omega
  · intro e hm
    rcases List.mem_append.mp hm with hm | hm
    · exact hnew' e hm
    · exact hnew e hm

theorem Fetches.mono (h : Fetches topic m b b') (hle : m ≤ n) : Fetches topic n b b' := by
  obtain ⟨new, he, hlength, hnew⟩ := h
  exact ⟨new, he, Nat.le_trans hlength hle, hnew⟩

/-- One look is one errand, and none if it is cancelled. -/
theorem fetches_look (b : Broker) (id : ConsumerId) (c : Consumer) :
    Fetches c.topic 1 b (b.look id c).2 := by
  cases hc : c.cancelled with
  | true =>
    rw [look_cancelled b hc]
    exact .of_eq rfl
  | false =>
    have hone : ∀ {b' : Broker} {failure : Option StoreError},
        b'.errands = ⟨.fetchNext, c.topic, failure⟩ :: b.errands → Fetches c.topic 1 b b' := by
      intro b' failure he
      exact ⟨[_], he, Nat.le_refl 1, by simp⟩
    rw [look_uncancelled b id hc]
    rcases (b.setConsumer id c.alert).call_cases .fetchNext c.topic (·.fetchNext c.topic) with
      ⟨e, f, he⟩ | ⟨found, s, f, -, he⟩
    · rw [he]
      exact hone ((errands_leave _ id).trans (errands_called ..))
    · rw [he]
      cases found with
      | none => exact hone (errands_called ..)
      | some payload => exact hone (errands_leave _ id)

theorem fetches_seek (hc : b.consumer? id = some c) : Fetches c.topic 2 b (b.seek id).2 := by
  have hfirst := fetches_look b id c
  unfold seek
  rw [hc]
  dsimp only
  split
  · rename_i result b' he
    rw [he] at hfirst
    exact hfirst.mono (by omega)
  · rename_i b' he
    rw [he] at hfirst
    have hwoken : Fetches c.topic 0 b' (b'.note (.woken id c.topic)) := .of_eq (errands_note rfl b')
    have hsecond := (hfirst.trans hwoken).trans (fetches_look _ id c)
    split
    · split
      · rename_i result b'' he'
        rwa [he'] at hsecond
      · rename_i b'' he'
        rw [he'] at hsecond
        exact hsecond.trans (.of_eq (n := 0) (errands_park b'' id))
    · exact (hfirst.trans (.of_eq (n := 0) (errands_park b' id))).mono (by omega)

theorem fetches_begin (hc : b.consumer? id = some c) : Fetches c.topic 2 b (b.begin id).2 := by
  unfold begin
  rw [hc]
  dsimp only
  split
  · exact .of_eq rfl
  · exact fetches_seek hc

theorem fetches_resume (hc : b.consumer? id = some c) : Fetches c.topic 2 b (b.resume id).2 := by
  unfold resume
  rw [hc]
  dsimp only
  split
  · refine .of_eq ((errands_leave _ id).trans ?_)
    split <;> rfl
  · split
    · have hwoken : Fetches c.topic 0 b (b.note (.woken id c.topic)) := .of_eq (errands_note rfl b)
      exact hwoken.trans (fetches_seek (b := b.note (.woken id c.topic)) hc)
    · exact .of_eq rfl

end Broker

end TopicQueue

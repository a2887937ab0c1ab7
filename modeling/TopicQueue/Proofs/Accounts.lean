import TopicQueue.Proofs.Runs

namespace TopicQueue

/-- Records, the latest first. -/
abbrev History := List Note

/-- What a consumer has to do with a message. -/
inductive Dealing where
  | received
  | settled (verdict : Verdict)
  deriving DecidableEq

namespace History

/-- The messages of a topic, in the order of publication. -/
def published (topic : String) : History → List Bytes
  | [] => []
  | .stored t payload :: earlier =>
    if t = topic then published topic earlier ++ [payload] else published topic earlier
  | _ :: earlier => published topic earlier

/-- How many messages of a topic have been acked. -/
def commits (topic : String) : History → Nat
  | [] => 0
  | .committed _ t :: earlier => if t = topic then commits topic earlier + 1 else commits topic earlier
  | _ :: earlier => commits topic earlier

/-- The message that a consumer got last: how many of its topic were acked before, and what it
says. -/
def delivery? (id : ConsumerId) : History → Option (Nat × Bytes)
  | [] => none
  | .claimed i t payload :: earlier =>
    if i = id then some (commits t earlier, payload) else delivery? id earlier
  | _ :: earlier => delivery? id earlier

/-- The messages of a topic that have been acked, each as the consumer that acked it had got it. -/
def committed (topic : String) : History → List Bytes
  | [] => []
  | .committed id t :: earlier =>
    if t = topic then committed topic earlier ++ ((delivery? id earlier).map (·.2)).toList
    else committed topic earlier
  | _ :: earlier => committed topic earlier

/-- Every message that has been given out came after those that had been acked by then. -/
def InOrder (h : History) : Prop :=
  ∀ later id topic payload earlier, h = later ++ .claimed id topic payload :: earlier →
    (published topic earlier)[commits topic earlier]? = some payload

/-- What a consumer has done, the earliest first. -/
def dealings (id : ConsumerId) : History → List Dealing
  | [] => []
  | .claimed i _ _ :: earlier =>
    if i = id then dealings id earlier ++ [.received] else dealings id earlier
  | .committed i _ :: earlier =>
    if i = id then dealings id earlier ++ [.settled .ack] else dealings id earlier
  | .requeued i _ :: earlier =>
    if i = id then dealings id earlier ++ [.settled .nack] else dealings id earlier
  | _ :: earlier => dealings id earlier

variable {h h' : History} {topic t : String} {id i : ConsumerId} {payload : Bytes}

theorem InOrder.cons {n : Note} (h : InOrder h')
    (hn : ∀ id topic payload, n = .claimed id topic payload →
      (published topic h')[commits topic h']? = some payload) : InOrder (n :: h') := by
  intro later id topic payload earlier he
  rcases List.cons_eq_append_iff.mp he with ⟨-, he⟩ | ⟨later', -, he⟩
  · cases he
    exact hn id topic payload rfl
  · exact h later' id topic payload earlier he

theorem dealings_record (v : Verdict) :
    dealings id (v.record i t :: h) =
      if i = id then dealings id h ++ [.settled v] else dealings id h := by
  cases v <;> rfl

@[simp] theorem published_record (v : Verdict) :
    published topic (v.record i t :: h) = published topic h := by
  cases v <;> rfl

@[simp] theorem delivery?_record (v : Verdict) :
    delivery? id (v.record i t :: h) = delivery? id h := by
  cases v <;> rfl

theorem commits_record_of_ne (v : Verdict) (hne : t ≠ topic) :
    commits topic (v.record i t :: h) = commits topic h := by
  cases v <;> simp [Verdict.record, commits, hne]

theorem committed_record_of_ne (v : Verdict) (hne : t ≠ topic) :
    committed topic (v.record i t :: h) = committed topic h := by
  cases v <;> simp [Verdict.record, committed, hne]

end History

/-- Messages come and are settled by turns, and one comes first. -/
def Alternate (dealings : List Dealing) : Prop :=
  ∀ i d, dealings[i]? = some d → (d = .received ↔ i % 2 = 0)

theorem Alternate.append {dealings : List Dealing} {d : Dealing} (h : Alternate dealings)
    (hd : d = .received ↔ dealings.length % 2 = 0) : Alternate (dealings ++ [d]) := by
  intro i e he
  by_cases hi : i < dealings.length
  · rw [List.getElem?_append_left hi] at he
    exact h i e he
  · rw [List.getElem?_append_right (Nat.le_of_not_lt hi), List.getElem?_singleton] at he
    split at he
    · cases he
      rw [hd, show i = dealings.length by omega]
    · cases he

namespace Store

variable {s s' : Store} {topic : String} {payload : Bytes}

theorem Sound.inserted (h : s.Sound) {now : Int} (hnow : ∃ t : Int64, now = t.toInt)
    (hi : s.insert topic payload now = .ok s') :
    s'.Sound ∧ s'.queue = Function.update s.queue topic
      { s.queue topic with entries := (s.queue topic).entries ++ [.ok payload] } := by
  obtain ⟨t, rfl⟩ := hnow
  obtain ⟨-, rfl⟩ := insert_ok hi
  rw [h.append_queue, item_encode]
  exact ⟨h.append _ _, rfl⟩

theorem Sound.fetched (h : s.Sound) (hf : s.fetchNext topic = .ok (some payload, s')) :
    s'.Sound ∧ (s.queue topic).claimed = false ∧
    (∃ rest, (s.queue topic).entries = .ok payload :: rest) ∧
    s'.queue = Function.update s.queue topic { s.queue topic with claimed := true } := by
  obtain ⟨-, hk, key, value, rest, ht, hv, rfl⟩ := fetchNext_some hf
  have hfirst : (s.tree topic).first? = some (key, value) := by simp [ht, Tree.first?]
  refine ⟨h.claim hfirst, ?_, ?_, claim_queue s topic key⟩
  · simp [claimed_queue, hk]
  · exact ⟨rest.map fun e => StoredEntry.item e.2, by simp [queue, ht, hv]⟩

/-- What a verdict leaves of the entries of its topic. -/
def left (entries : List Item) : Verdict → List Item
  | .ack => entries.tail
  | .nack => entries

theorem Sound.applied (h : s.Sound) {v : Verdict} (hv : v.apply topic s = .ok s') :
    s'.Sound ∧ (s.queue topic).claimed = true ∧
    s'.queue = Function.update s.queue topic ⟨left (s.queue topic).entries v, false⟩ := by
  cases v with
  | ack =>
    obtain ⟨-, key, hk, rfl⟩ := commit_ok hv
    obtain ⟨value, rest, ht⟩ := h.claimed_first topic key hk
    exact ⟨h.dropClaimed ht, by simp [claimed_queue, hk], h.dropClaimed_queue ht⟩
  | nack =>
    obtain ⟨-, key, hk, rfl⟩ := requeue_ok hv
    exact ⟨h.release topic, by simp [claimed_queue, hk], release_queue s topic⟩

end Store

namespace Ledger
open History

variable {l l' : Ledger}

/-- What an entry needs to come back as it went in: a store in order and a time that it can
bear. -/
structure Durable (l : Ledger) : Prop where
  sound : l.store.Sound
  clock : ∃ t : Int64, l.now = t.toInt

theorem Durable.step (h : l.Durable) (hs : Step l l') : l'.Durable := by
  cases hs with
  | stored hi => exact ⟨(h.sound.inserted h.clock hi).1, h.clock⟩
  | claimed hid hf => exact ⟨(h.sound.fetched hf).1, h.clock⟩
  | settled v hid hv => exact ⟨(h.sound.applied hv).1, h.clock⟩
  | closed => exact ⟨⟨h.sound.ascending, h.sound.below, h.sound.claimed_first⟩, h.clock⟩
  | refused | joined | left => exact ⟨h.sound, h.clock⟩
  | ticked t => exact ⟨h.sound, t, rfl⟩

theorem Durable.steps (h : l.Durable) (hs : Steps l l') : l'.Durable := by
  induction hs with
  | refl => exact h
  | tail _ hstep ih => exact ih.step hstep

/-- What has been published is what has been acked and what is stored, in this order. -/
def Balanced (l : Ledger) (topic : String) : Prop :=
  ∃ stored : List Bytes,
    (l.store.queue topic).entries = stored.map .ok ∧
    published topic l.records = committed topic l.records ++ stored ∧
    (committed topic l.records).length = commits topic l.records

/-- A holder has the claim of its topic, on the entry that it got last. -/
def Owns (l : Ledger) (id : ConsumerId) (topic : String) : Prop :=
  (l.store.queue topic).claimed = true ∧
  ∃ payload rest, (l.store.queue topic).entries = .ok payload :: rest ∧
    delivery? id l.records = some (commits topic l.records, payload)

structure Accounted (l : Ledger) : Prop where
  sound : l.store.Sound
  clock : ∃ t : Int64, l.now = t.toInt
  fresh : l.Fresh
  balanced : ∀ topic, l.Balanced topic
  inOrder : InOrder l.records
  owned : ∀ id topic, l.holder id = some (topic, true) → l.Owns id topic
  alone : ∀ id other topic, l.holder id = some (topic, true) →
    l.holder other = some (topic, true) → id = other
  alternate : ∀ id, Alternate (dealings id l.records)
  /-- The last dealing of a holder has been to receive. -/
  turn : ∀ id topic held, l.holder id = some (topic, held) →
    (held = true ↔ (dealings id l.records).length % 2 = 1)
  untouched : ∀ id, l.nextId ≤ id → dealings id l.records = []

theorem Accounted.durable (h : l.Accounted) : l.Durable := ⟨h.sound, h.clock⟩

theorem Accounted.step_balanced (h : l.Accounted) (hs : Step l l') (topic : String) :
    l'.Balanced topic := by
  obtain ⟨stored, he, hp, hc⟩ := h.balanced topic
  cases hs with
  | @stored s t payload hi =>
    obtain ⟨-, hq⟩ := h.sound.inserted h.clock hi
    by_cases ht : t = topic
    · refine ⟨stored ++ [payload], ?_, ?_, hc⟩
      · simp [hq, ht, he]
      · simp [published, committed, ht, hp]
    · refine ⟨stored, ?_, ?_, hc⟩
      · simp [hq, Function.update_of_ne (Ne.symm ht), he]
      · simp [published, committed, ht, hp]
  | refused => exact ⟨stored, he, hp, hc⟩
  | @claimed s id t held payload hid hf =>
    obtain ⟨-, -, -, hq⟩ := h.sound.fetched hf
    refine ⟨stored, ?_, hp, hc⟩
    by_cases ht : topic = t
    · simp [hq, ← ht, he]
    · simp [hq, ht, he]
  | @settled s id t v hid hv =>
    obtain ⟨-, -, hq⟩ := h.sound.applied hv
    by_cases ht : t = topic
    · rw [ht] at hid hv hq
      -- The entry that goes is the one that the consumer got.
      obtain ⟨-, payload, rest, hfirst, hd⟩ := h.owned id topic hid
      cases v with
      | ack =>
        obtain ⟨_, stored, rfl, hok, -⟩ := List.map_eq_cons_iff.mp (he.symm.trans hfirst)
        cases hok
        refine ⟨stored, ?_, ?_, ?_⟩
        · simp [hq, Store.left, he]
        · simp [published, committed, Verdict.record, ht, hp, hd]
        · simp [committed, commits, Verdict.record, ht, hc, hd]
      | nack => exact ⟨stored, by simp [hq, Store.left, he], hp, hc⟩
    · refine ⟨stored, ?_, ?_, ?_⟩
      · simp [hq, Function.update_of_ne (Ne.symm ht), he]
      · rw [published_record, committed_record_of_ne v ht, hp]
      · rw [committed_record_of_ne v ht, commits_record_of_ne v ht, hc]
  | closed => exact ⟨stored, he, hp, hc⟩
  | joined => exact ⟨stored, he, hp, hc⟩
  | left => exact ⟨stored, he, hp, hc⟩
  | ticked => exact ⟨stored, he, hp, hc⟩

/-- The next message of a topic is the first that has not been acked. -/
theorem Accounted.next (h : l.Accounted) {topic : String} {payload : Bytes} {s : Store}
    (hf : l.store.fetchNext topic = .ok (some payload, s)) :
    (published topic l.records)[commits topic l.records]? = some payload := by
  obtain ⟨stored, he, hp, hc⟩ := h.balanced topic
  obtain ⟨-, -, ⟨rest, hfirst⟩, -⟩ := h.sound.fetched hf
  obtain ⟨_, stored, rfl, hok, -⟩ := List.map_eq_cons_iff.mp (he.symm.trans hfirst)
  cases hok
  rw [hp, ← hc, List.getElem?_append_right (Nat.le_refl _)]
  simp

theorem Accounted.step_inOrder (h : l.Accounted) (hs : Step l l') : InOrder l'.records := by
  cases hs with
  | @claimed s id topic held payload hid hf =>
    refine h.inOrder.cons ?_
    rintro _ _ _ ⟨⟩
    exact h.next hf
  | stored => exact h.inOrder.cons (by simp)
  | refused => exact h.inOrder.cons (by simp)
  | @settled s id topic v hid hv => exact h.inOrder.cons (by cases v <;> simp [Verdict.record])
  | closed | joined | left | ticked => exact h.inOrder

/-- The topic of a successful look has no holder. -/
theorem Accounted.unheld (h : l.Accounted) {s : Store} {topic : String} {payload : Bytes}
    (hf : l.store.fetchNext topic = .ok (some payload, s)) (id : ConsumerId) :
    l.holder id ≠ some (topic, true) := by
  intro hid
  obtain ⟨-, hclaimed, -⟩ := h.sound.fetched hf
  rw [(h.owned id topic hid).1] at hclaimed
  cases hclaimed

/-- Whoever holds after somebody else has changed held before. -/
theorem held_before {i j : ConsumerId} {v : Option (String × Bool)} {topic : String}
    (hv : ∀ t, v ≠ some (t, true)) (hj : Function.update l.holder i v j = some (topic, true)) :
    j ≠ i ∧ l.holder j = some (topic, true) := by
  rw [Function.update_apply] at hj
  split at hj
  · exact absurd hj (hv topic)
  · rename_i hne
    exact ⟨hne, hj⟩

theorem Accounted.step_owned (h : l.Accounted) (hs : Step l l') (id : ConsumerId) (topic : String)
    (hid' : l'.holder id = some (topic, true)) : l'.Owns id topic := by
  cases hs with
  | @stored s t payload hi =>
    obtain ⟨hclaimed, p, rest, he, hd⟩ := h.owned id topic hid'
    obtain ⟨-, hq⟩ := h.sound.inserted h.clock hi
    by_cases ht : topic = t
    · exact ⟨by simp [hq, ← ht, hclaimed], p, rest ++ [.ok payload], by simp [hq, ← ht, he], hd⟩
    · exact ⟨by simp [hq, ht, hclaimed], p, rest, by simp [hq, ht, he], hd⟩
  | @claimed s i t held payload hid hf =>
    obtain ⟨-, -, ⟨rest, he⟩, hq⟩ := h.sound.fetched hf
    dsimp only at hid'
    by_cases hi : id = i
    · rw [hi, Function.update_self] at hid'
      cases hid'
      exact ⟨by simp [hq], payload, rest, by simp [hq, he], by simp [delivery?, commits, hi]⟩
    · rw [Function.update_of_ne hi] at hid'
      obtain ⟨hclaimed, p, rest, he, hd⟩ := h.owned id topic hid'
      have ht : topic ≠ t := by
        rintro rfl
        exact h.unheld hf id hid'
      exact ⟨by simp [hq, ht, hclaimed], p, rest, by simp [hq, ht, he],
        by simp [delivery?, commits, Ne.symm hi, hd]⟩
  | @settled s i t v hid hv =>
    obtain ⟨hi, hheld⟩ := held_before (by simp) hid'
    obtain ⟨hclaimed, p, rest, he, hd⟩ := h.owned id topic hheld
    obtain ⟨-, -, hq⟩ := h.sound.applied hv
    have ht : topic ≠ t := by
      rintro rfl
      exact hi (h.alone id i topic hheld hid)
    exact ⟨by simp [hq, ht, hclaimed], p, rest, by simp [hq, ht, he],
      by rw [delivery?_record, commits_record_of_ne v (Ne.symm ht), hd]⟩
  | joined t => exact h.owned id topic (held_before (by simp) hid').2
  | left => exact h.owned id topic (held_before (by simp) hid').2
  | refused => exact h.owned id topic hid'
  | closed => exact h.owned id topic hid'
  | ticked => exact h.owned id topic hid'

theorem Accounted.step_alone (h : l.Accounted) (hs : Step l l') (id other : ConsumerId)
    (topic : String) (hid' : l'.holder id = some (topic, true))
    (hother' : l'.holder other = some (topic, true)) : id = other := by
  cases hs with
  | @claimed s i t held payload hid hf =>
    simp only [Function.update_apply] at hid' hother'
    split at hid' <;> split at hother'
    · rename_i hi ho
      rw [hi, ho]
    · cases hid'
      exact absurd hother' (h.unheld hf other)
    · cases hother'
      exact absurd hid' (h.unheld hf id)
    · exact h.alone id other topic hid' hother'
  | settled | joined | left =>
    exact h.alone id other topic (held_before (by simp) hid').2 (held_before (by simp) hother').2
  | stored | refused | closed | ticked => exact h.alone id other topic hid' hother'

/-- Nobody that holds a message gets another. -/
theorem Accounted.even (h : l.Accounted) {s : Store} {id : ConsumerId} {topic : String}
    {held : Bool} {payload : Bytes} (hid : l.holder id = some (topic, held))
    (hf : l.store.fetchNext topic = .ok (some payload, s)) :
    (dealings id l.records).length % 2 = 0 := by
  cases held with
  | true => exact absurd hid (h.unheld hf id)
  | false =>
    have hturn := h.turn id topic false hid
    simp only [Bool.false_eq_true, false_iff] at hturn
    omega

theorem Accounted.odd (h : l.Accounted) {id : ConsumerId} {topic : String}
    (hid : l.holder id = some (topic, true)) : (dealings id l.records).length % 2 = 1 :=
  (h.turn id topic true hid).mp rfl

theorem Accounted.step_alternate (h : l.Accounted) (hs : Step l l') (id : ConsumerId) :
    Alternate (dealings id l'.records) := by
  cases hs with
  | @claimed s i t held payload hid hf =>
    simp only [dealings]
    split
    · rename_i hi
      rw [hi] at hid
      exact (h.alternate id).append (by simp [h.even hid hf])
    · exact h.alternate id
  | @settled s i t v hid hv =>
    simp only [dealings_record]
    split
    · rename_i hi
      rw [hi] at hid
      exact (h.alternate id).append (by simp [h.odd hid])
    · exact h.alternate id
  | stored | refused | closed | joined | left | ticked => exact h.alternate id

theorem Accounted.step_turn (h : l.Accounted) (hs : Step l l') (id : ConsumerId) (topic : String)
    (held : Bool) (hid' : l'.holder id = some (topic, held)) :
    held = true ↔ (dealings id l'.records).length % 2 = 1 := by
  cases hs with
  | @claimed s i t was payload hid hf =>
    simp only [Function.update_apply, dealings] at hid' ⊢
    by_cases hi : id = i
    · rw [if_pos hi] at hid'
      cases hid'
      rw [← hi] at hid
      have heven := h.even hid hf
      rw [if_pos hi.symm, List.length_append, List.length_singleton]
      exact iff_of_true rfl (by omega)
    · rw [if_neg hi] at hid'
      rw [if_neg (Ne.symm hi)]
      exact h.turn id topic held hid'
  | @settled s i t v hid hv =>
    simp only [Function.update_apply, dealings_record] at hid' ⊢
    by_cases hi : id = i
    · rw [if_pos hi] at hid'
      cases hid'
      rw [← hi] at hid
      have hodd := h.odd hid
      rw [if_pos hi.symm, List.length_append, List.length_singleton]
      exact iff_of_false Bool.false_ne_true (by omega)
    · rw [if_neg hi] at hid'
      rw [if_neg (Ne.symm hi)]
      exact h.turn id topic held hid'
  | joined t =>
    simp only [Function.update_apply] at hid'
    split at hid'
    · rename_i hi
      cases hid'
      have hnone := h.untouched id (Nat.le_of_eq hi.symm)
      simp [hnone]
    · exact h.turn id topic held hid'
  | @left i t was hid hleft =>
    simp only [Function.update_apply] at hid'
    split at hid'
    · cases hid'
    · exact h.turn id topic held hid'
  | stored | refused | closed | ticked => exact h.turn id topic held hid'

theorem Accounted.step_untouched (h : l.Accounted) (hs : Step l l') (id : ConsumerId)
    (hid' : l'.nextId ≤ id) : dealings id l'.records = [] := by
  have hnone := h.untouched id (Nat.le_trans hs.nextId_le hid')
  -- What is recorded is the doing of one that is known.
  have hknown : ∀ {i v}, l.holder i = some v → i ≠ id := by
    rintro i v hi rfl
    rw [h.fresh i (Nat.le_trans hs.nextId_le hid')] at hi
    cases hi
  cases hs with
  | claimed hid hf => simp [dealings, hknown hid, hnone]
  | settled v hid hv => simp [dealings_record, hknown hid, hnone]
  | stored | refused | closed | joined | left | ticked => exact hnone

theorem Accounted.step (h : l.Accounted) (hs : Step l l') : l'.Accounted where
  sound := (h.durable.step hs).sound
  clock := (h.durable.step hs).clock
  fresh := hs.fresh h.fresh
  balanced := h.step_balanced hs
  inOrder := h.step_inOrder hs
  owned := h.step_owned hs
  alone := h.step_alone hs
  alternate := h.step_alternate hs
  turn := h.step_turn hs
  untouched := h.step_untouched hs

theorem Accounted.steps (h : l.Accounted) (hs : Steps l l') : l'.Accounted := by
  induction hs with
  | refl => exact h
  | tail _ hstep ih => exact ih.step hstep

theorem accounted_start (flushOnInsert : Bool) :
    Accounted (Broker.ledger { store := { flushOnInsert } }) where
  sound := Store.sound_empty flushOnInsert false
  clock := ⟨0, rfl⟩
  fresh _ _ := rfl
  balanced _ := ⟨[], rfl, rfl, rfl⟩
  inOrder _ _ _ _ _ h := by simp [Broker.ledger, Broker.records] at h
  owned _ _ h := by cases h
  alone _ _ _ h := by cases h
  alternate _ _ _ h := by cases h
  turn _ _ _ h := by cases h
  untouched _ _ := rfl

end Ledger

/-- Whatever has been asked of the broker of a reachable scene, and wherever its task is by now,
the accounts are right. -/
theorem Scene.Reachable.accounted {s : Scene} (h : s.Reachable) {m : Moment}
    (hm : Reaches ⟨s.broker, none⟩ m) : m.broker.ledger.Accounted := by
  obtain ⟨flushOnInsert, hs⟩ := h.reaches
  exact (Ledger.accounted_start flushOnInsert).steps (Reaches.steps (hs.trans hm))

end TopicQueue

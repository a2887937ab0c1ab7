import TopicQueue.Proofs.CommandStream
import TopicQueue.Proofs.Runs
import TopicQueue.Proofs.SessionActs

namespace TopicQueue

section

variable {κ α : Type} [DecidableEq κ]

theorem mul_length_filter (n : Nat) (p : α → Bool) (l : List α) :
    n * (l.filter p).length = tally (fun a => if p a then n else 0) l := by
  induction l with
  | nil => rfl
  | cons a l ih =>
    cases hp : p a with
    | true => simp [hp, ← ih, Nat.mul_succ, Nat.add_comm]
    | false => simp [hp, ih]

theorem tally_congr {f g : α → Nat} {l : List α} (h : ∀ a ∈ l, f a = g a) :
    tally f l = tally g l := by
  induction l with
  | nil => rfl
  | cons a l ih =>
    simp only [List.forall_mem_cons] at h
    rw [tally_cons, tally_cons, h.1, ih h.2]

theorem tally_filter_le (f : α → Nat) (p : α → Bool) (l : List α) :
    tally f (l.filter p) ≤ tally f l := by
  induction l with
  | nil => simp
  | cons a l ih =>
    cases hp : p a <;> simp [hp] <;> omega

/-- A value takes the place of the one before. -/
theorem tally_put {f : κ × α → Nat} {t : Table κ α} {k : κ} {v : α} (h : t.look k = some v)
    (v' : α) : tally f (t.put k v') + f (k, v) = tally f t + f (k, v') := by
  induction t with
  | nil => cases h
  | cons p t ih =>
    obtain ⟨k', w⟩ := p
    simp only [Table.look, Table.put] at h ⊢
    split
    · rename_i hk
      rw [if_pos hk] at h
      cases h
      rw [hk, tally_cons, tally_cons]
      omega
    · rename_i hk
      rw [if_neg hk] at h
      rw [tally_cons, tally_cons]
      have := ih h
      omega

theorem tally_remove {f : κ × α → Nat} {t : Table κ α} {k : κ} {v : α} (h : t.look k = some v) :
    tally f (t.remove k) + f (k, v) ≤ tally f t := by
  induction t with
  | nil => cases h
  | cons p t ih =>
    obtain ⟨k', w⟩ := p
    have hle := tally_filter_le f (fun p => k ≠ p.1) t
    simp only [Table.look, Table.remove, List.filter_cons] at h ih ⊢
    split at h
    · rename_i hk
      cases h
      simp [hk] at hle ⊢
      omega
    · rename_i hk
      have := ih h
      simp [hk] at this ⊢
      omega

end

namespace Broker

/-- What a consumer may still put on the queue when its call returns, if it is one of these. -/
def owed (m : ConsumerId → Bool) (id : ConsumerId) (c : Consumer) : Nat :=
  if c.wait ≠ .idle ∧ m id then 2 else 0

/-- Tasks on the queue, and what is owed. -/
def due (m : ConsumerId → Bool) (b : Broker) : Nat :=
  b.ready.length + tally (fun p => owed m p.1 p.2) b.consumers

variable {m : ConsumerId → Bool} {b b' : Broker} {id : ConsumerId} {c c' : Consumer}

@[simp] theorem due_note (b : Broker) (n : Note) : (b.note n).due m = b.due m := rfl

theorem owed_other (h : m id = false) (c : Consumer) : owed m id c = 0 := by
  simp [owed, h]

theorem owed_idle (h : c.wait = .idle) : owed m id c = 0 := by
  simp [owed, h]

theorem owed_roused (c : Consumer) : owed m id c.roused = owed m id c := by
  unfold Consumer.roused owed
  split
  · rename_i h
    simp [h]
  · rfl

theorem due_setConsumer (hc : b.consumer? id = some c) (c' : Consumer) :
    (b.setConsumer id c').due m + owed m id c = b.due m + owed m id c' := by
  have hput := tally_put (f := fun p => owed m p.1 p.2) hc c'
  simp only [due, setConsumer]
  dsimp only at hput
  omega

theorem due_became (hc : b.consumer? id = some c) (f : Faults) (j : Journal) (s : Store)
    (c' : Consumer) :
    (b.became f j s id c').due m + owed m id c = b.due m + owed m id c' :=
  due_setConsumer hc c'

theorem due_enqueue (b : Broker) (id : ConsumerId) : (b.enqueue id).due m ≤ b.due m + 1 := by
  unfold enqueue
  split
  · omega
  · simp only [due, List.length_append, List.length_singleton]
    omega

theorem due_wake (b : Broker) (id : ConsumerId) : (b.wake id).due m ≤ b.due m + 1 := by
  cases hc : b.consumer? id with
  | none => simp [wake, hc]
  | some c =>
    have hset := due_setConsumer (m := m) hc c.roused
    rw [owed_roused] at hset
    unfold Consumer.roused at hset
    simp only [wake, hc]
    split
    · rename_i hw
      rw [if_pos hw] at hset
      have hqueue := due_enqueue (m := m)
        (b.setConsumer id { c with waiting := false, wait := .woken }) id
      omega
    · rename_i hw
      rw [if_neg hw] at hset
      omega

theorem due_notify (b : Broker) (topic : String) (reason : WakeReason) :
    (b.notify topic reason).due m ≤ b.due m + 1 := by
  rcases b.notify_cases topic reason with ⟨n, -, he, -⟩ | ⟨other, c, r, -, -, hc, hw, he⟩
  · rw [he]
    exact Nat.le_succ _
  · rw [he]
    exact due_wake b other

theorem due_leave (hc : b.consumer? id = some c) :
    (b.leave id).due m + owed m id c ≤ b.due m + 1 := by
  have hset := due_setConsumer (m := m) hc { c with waiting := false, wait := .idle }
  rw [owed_idle (c := { c with waiting := false, wait := .idle }) rfl] at hset
  cases hw : c.waiting with
  | true =>
    rw [leave_waiting hc hw]
    omega
  | false =>
    rw [leave_woken hc hw]
    have hnotify := due_notify (m := m)
      (b.setConsumer id { c with waiting := false, wait := .idle }) c.topic .handoff
    omega

/-- One that gets a result owes nothing more. -/
theorem Sought.due_returned {rest : Consumer} {result : Except BrokerError Bytes}
    (hc : b.consumer? id = some c) (h : Sought b id c rest (some result, b')) :
    b'.due m + owed m id c = b.due m := by
  cases h with
  | cancelled f j | failed f j | claimed f j =>
    rw [due_became hc, owed_idle rfl, Nat.add_zero]

theorem Sought.due_asleep (hc : b.consumer? id = some c)
    (h : Sought b id c c.asleep (none, b')) :
    b'.due m + owed m id c = b.due m + owed m id c.asleep := by
  cases h with
  | nothing f j => exact due_became hc ..

theorem due_settle (b : Broker) (id : ConsumerId) (v : Verdict) :
    (b.settle id v).2.due m ≤ b.due m + 1 := by
  cases hc : b.consumer? id with
  | none => simp [settle, hc]
  | some c =>
    cases hh : c.holding with
    | false =>
      rw [settle_idle hc hh]
      exact Nat.le_succ _
    | true =>
      rcases settle_cases hc hh v with ⟨e, f, he⟩ | ⟨s, f, -, he⟩
      · rw [he]
        exact Nat.le_succ _
      · rw [he]
        have hset := due_became (m := m) hc f
          [⟨b.span, v.record id c.topic⟩, ⟨b.span, .called v.call c.topic none⟩] s
          { c with holding := false }
        have hnotify := due_notify (m := m) (b.became f
          [⟨b.span, v.record id c.topic⟩, ⟨b.span, .called v.call c.topic none⟩] s id
          { c with holding := false }) c.topic v.reason
        have hsame : owed m id { c with holding := false } = owed m id c := rfl
        dsimp only
        omega

theorem due_forget (b : Broker) (id : ConsumerId) (topic : String) :
    (b.forget id topic).due m ≤ b.due m :=
  Nat.add_le_add_left (tally_filter_le _ _ _) _

theorem due_release (b : Broker) (id : ConsumerId) :
    (b.release id).due m ≤ b.due m + 1 := by
  cases hc : b.consumer? id with
  | none => simp [release, hc]
  | some c =>
    cases hh : c.holding with
    | false =>
      rw [release_idle hc hh]
      have hforget := due_forget (m := m) b id c.topic
      omega
    | true =>
      have hsettle := due_settle (m := m) b id .nack
      rw [release_holding hc hh]
      split
      · rename_i b' he
        rw [he] at hsettle
        exact Nat.le_trans (due_forget _ id c.topic) hsettle
      · rename_i e b' he
        rw [he] at hsettle
        exact Nat.le_trans (due_forget _ id c.topic) hsettle

theorem owed_asleep (c : Consumer) : owed m id c ≤ owed m id c.asleep := by
  unfold owed Consumer.asleep
  split <;> simp_all

theorem due_begin_returned {result : Except BrokerError Bytes} (hc : b.consumer? id = some c)
    (h : b.begin id = (some result, b')) : b'.due m + owed m id c = b.due m := by
  rcases begin_cases hc with ⟨-, he⟩ | ⟨-, hs⟩
  · rw [h] at he
    cases he
    rw [due_setConsumer hc, owed_idle (c := { c with wait := .idle }) rfl, Nat.add_zero]
  · rw [h] at hs
    exact hs.due_returned hc

theorem due_begin_asleep (hc : b.consumer? id = some c) (h : b.begin id = (none, b')) :
    b'.due m + owed m id c = b.due m + owed m id c.asleep := by
  rcases begin_cases hc with ⟨-, he⟩ | ⟨-, hs⟩
  · rw [h] at he
    cases he
  · rw [h] at hs
    exact hs.due_asleep hc

/-- A call that is cancelled while it sleeps may hand one wake on. -/
theorem due_resume_returned {result : Except BrokerError Bytes} (hc : b.consumer? id = some c)
    (h : b.resume id = (some result, b')) : b'.due m + owed m id c ≤ b.due m + 1 := by
  cases hcancel : c.cancelled with
  | true =>
    rw [resume_cancelled hc hcancel] at h
    cases h
    split
    · have hset := due_setConsumer (m := m) hc { c with permit := true }
      have hleave := due_leave (m := m)
        (consumer?_setConsumer_self b id { c with permit := true })
      omega
    · exact due_leave hc
  | false =>
    by_cases hw : c.wait = .woken
    · have hs := resume_woken hc hcancel hw
      rw [h] at hs
      have hreturned := hs.due_returned (m := m) (b := b.note _) hc
      exact Nat.le_trans (Nat.le_of_eq hreturned) (Nat.le_succ _)
    · rw [resume_asleep hc hcancel hw] at h
      cases h

theorem due_resume_asleep (hc : b.consumer? id = some c) (h : b.resume id = (none, b')) :
    b'.due m + owed m id c ≤ b.due m + owed m id c.asleep := by
  cases hcancel : c.cancelled with
  | true =>
    rw [resume_cancelled hc hcancel] at h
    cases h
  | false =>
    by_cases hw : c.wait = .woken
    · have hs := resume_woken hc hcancel hw
      rw [h] at hs
      exact Nat.le_of_eq (hs.due_asleep (b := b.note _) hc)
    · rw [resume_asleep hc hcancel hw] at h
      cases h
      exact Nat.add_le_add_left (owed_asleep c) _

/-- The call that returns has paid for the wake that it hands on. -/
theorem due_runNext (hm : m id = true) (b : Broker) : (b.runNext id).due m ≤ b.due m := by
  cases hc : b.consumer? id with
  | none => simp [runNext, hc]
  | some c =>
    have hasleep : c.wait ≠ .idle → owed m id c = 2 ∧ owed m id c.asleep = 2 := by
      intro hw
      simp [owed, hm, hw, Consumer.asleep]
    cases hw : c.wait with
    | idle => simp [runNext, hc, hw]
    | asked =>
      obtain ⟨howed, howed'⟩ := hasleep (by simp [hw])
      cases hb : b.begin id with
      | mk r b' =>
        cases r with
        | none =>
          have hdue := due_begin_asleep (m := m) hc hb
          simp only [runNext, hc, hw, hb]
          omega
        | some result =>
          have hdue := due_begin_returned (m := m) hc hb
          simp only [runNext, hc, hw, hb, due_note]
          omega
    | parked | woken =>
      obtain ⟨howed, howed'⟩ := hasleep (by simp [hw])
      cases hb : b.resume id with
      | mk r b' =>
        cases r with
        | none =>
          have hdue := due_resume_asleep (m := m) hc hb
          simp only [runNext, hc, hw, hb]
          omega
        | some result =>
          have hdue := due_resume_returned (m := m) hc hb
          simp only [runNext, hc, hw, hb, due_note]
          omega

/-- It does not matter whether one counts who is not there. -/
theorem due_congr {m' : ConsumerId → Bool} (hc : b.consumer? id = none)
    (h : ∀ other, other ≠ id → m other = m' other) : b.due m = b.due m' := by
  have habsent : ∀ {t : Table ConsumerId Consumer}, t.look id = none → ∀ p ∈ t, p.1 ≠ id := by
    intro t ht p hp
    induction t with
    | nil => cases hp
    | cons q t ih =>
      simp only [Table.look] at ht
      split at ht
      · cases ht
      · rename_i hq
        rcases List.mem_cons.mp hp with rfl | hp
        · exact Ne.symm hq
        · exact ih ht hp
  unfold due
  congr 1
  apply tally_congr
  intro p hp
  simp only [owed, h p.1 (habsent hc p hp)]

end Broker

namespace Inlet
open Command

/-- What is left of a buffer is no more than there was, and less where a command was taken. -/
theorem decode_length (buffer : Bytes) :
    (decode buffer).2.length ≤ buffer.length ∧
    ∀ c, (decode buffer).1 = .ok (some c) → (decode buffer).2.length < buffer.length := by
  have hd := decode_decoded buffer
  have hle := (List.dropWhile_sublist isSpace (l := buffer)).length_le
  have hshorter : ∀ {v s after}, buffer.dropWhile isSpace = v ++ after → Written v s →
      after.length < buffer.length := took_shorter
  generalize decode buffer = r at hd
  generalize buffer.dropWhile isSpace = bs at *
  cases hd with
  | took he hv => exact ⟨Nat.le_of_lt (hshorter he hv), fun _ _ => hshorter he hv⟩
  | waits hs => exact ⟨hle, by simp⟩
  | failed he hne hs => exact ⟨hle, by simp⟩

/-- What has been read is not there to be read again. -/
def Shrinks (size : Nat) (r : Reading × Inlet) : Prop :=
  r.2.unread ≤ size ∧ ∀ c, r.1 = .command c → r.2.unread < size

theorem readChunks_shrinks (closed : Bool) (buffer : Bytes) (queue : List Chunk) :
    Shrinks (buffer.length + tally Chunk.size queue) (readChunks closed buffer queue) := by
  induction queue generalizing buffer with
  | nil =>
    obtain ⟨hle, hlt⟩ := decode_length buffer
    simp only [readChunks, decodeLast]
    generalize decode buffer = r at hle hlt
    obtain ⟨answer, rest⟩ := r
    cases answer with
    | error e => cases closed <;> exact ⟨by simpa [unread] using hle, by simp⟩
    | ok taken =>
      cases taken with
      | some c =>
        have hlt := hlt c rfl
        cases closed <;> exact ⟨by simpa [unread] using hle, by simpa [unread] using hlt⟩
      | none =>
        cases closed with
        | false => exact ⟨by simpa [unread] using hle, by simp⟩
        | true => cases hall : rest.all isSpace <;> exact ⟨by simpa [unread, hall] using hle, by simp [hall]⟩
  | cons chunk queue ih =>
    obtain ⟨hle, hlt⟩ := decode_length buffer
    simp only [readChunks]
    generalize decode buffer = r at hle hlt
    obtain ⟨answer, rest⟩ := r
    dsimp only at hle hlt
    cases answer with
    | error e => exact ⟨by simp [unread]; omega, by simp⟩
    | ok taken =>
      cases taken with
      | some c =>
        have hlt := hlt c rfl
        exact ⟨by simp [unread]; omega, by intro _ _; simp [unread]; omega⟩
      | none =>
        cases chunk with
        | data octets =>
          have hread := ih (rest ++ octets)
          have hsize : (rest ++ octets).length + tally Chunk.size queue ≤
              buffer.length + tally Chunk.size (.data octets :: queue) := by
            simp only [List.length_append, tally_cons, Chunk.size]
            omega
          exact ⟨Nat.le_trans hread.1 hsize, fun c hc => Nat.lt_of_lt_of_le (hread.2 c hc) hsize⟩
        | lost reason => exact ⟨by simp [unread]; omega, by simp⟩

theorem next_shrinks (inlet : Inlet) : Shrinks inlet.unread inlet.next := by
  cases inlet with
  | commands queue closed =>
    cases queue with
    | nil => cases closed <;> exact ⟨Nat.le_refl _, by simp [next]⟩
    | cons item queue => cases item <;> exact ⟨by simp [next, unread], by simp [next, unread]⟩
  | chunks buffer queue closed => exact readChunks_shrinks closed buffer queue

end Inlet

namespace Session
open Broker

variable {m : ConsumerId → Bool} {id : ConsumerId} {deaf : Bool} {p p' : Point}

/-- What a session may still put on the queue from this stage on, apart from what it reads. -/
def Stage.cost : Stage → Nat
  | .obeying _ => 3
  | .reading | .asking _ | .waiting _ | .answering _ | .parting => 2
  | .closing _ => 1
  | .gone => 0

def Point.due (m : ConsumerId → Bool) (p : Point) : Nat :=
  p.broker.due m + p.stage.cost + p.inlet.unread

theorem cost_ofResult (result : Except BrokerError Bytes) :
    (Stage.ofResult result).cost ≤ 2 := by
  cases result with
  | ok payload => exact Nat.le_refl _
  | error e => cases e <;> simp [Stage.ofResult, Stage.cost]

theorem cost_ofFailure (e : ReadError) : (Stage.ofFailure e).cost ≤ 2 := by
  unfold Stage.ofFailure
  split <;> simp [Stage.cost]

theorem due_begun {b b' : Broker} {r : Option (Except BrokerError Bytes)} (hm : m id = false)
    (h : b.begin id = (r, b')) : b'.due m = b.due m := by
  cases hc : b.consumer? id with
  | none =>
    have hnone : b.begin id = (none, b) := by simp [begin, hc]
    rw [h] at hnone
    cases hnone
    rfl
  | some c =>
    cases r with
    | none => simpa [owed_other hm] using due_begin_asleep (m := m) hc h
    | some result => simpa [owed_other hm] using due_begin_returned (m := m) hc h

/-- A wake is handed on only where the session is about to end. -/
theorem due_resumed {b b' : Broker} {result : Except BrokerError Bytes} (hm : m id = false)
    (h : b.resume id = (some result, b')) :
    b'.due m + (Stage.ofResult result).cost ≤ b.due m + 2 := by
  cases hc : b.consumer? id with
  | none => simp [resume, hc] at h
  | some c =>
    cases hcancel : c.cancelled with
    | true =>
      have hdue := due_resume_returned (m := m) hc h
      rw [resume_cancelled hc hcancel] at h
      cases h
      rw [owed_other hm] at hdue
      simp only [Stage.ofResult, Stage.cost]
      omega
    | false =>
      by_cases hw : c.wait = .woken
      · have hs := resume_woken hc hcancel hw
        rw [h] at hs
        have hdue := hs.due_returned (m := m) (b := b.note _) hc
        have hcost := cost_ofResult result
        rw [owed_other hm, due_note] at hdue
        omega
      · rw [resume_asleep hc hcancel hw] at h
        cases h

theorem due_still {b b' : Broker} (hm : m id = false) (h : b.resume id = (none, b')) :
    b'.due m ≤ b.due m := by
  cases hc : b.consumer? id with
  | none =>
    have hnone : b.resume id = (none, b) := by simp [resume, hc]
    rw [h] at hnone
    cases hnone
    exact Nat.le_refl _
  | some c => simpa [owed_other hm] using due_resume_asleep (m := m) hc h

/-- What an act of a session puts on the queue, it has paid for. -/
theorem Act.due_le (h : Act id deaf p p') (hm : m id = false) : p'.due m ≤ p.due m := by
  have hread : ∀ {inlet inlet' : Inlet} {r}, inlet.next = (r, inlet') →
      inlet'.unread ≤ inlet.unread ∧ ∀ c, r = .command c → inlet'.unread < inlet.unread := by
    intro inlet inlet' r hn
    have hshrinks := inlet.next_shrinks
    rw [hn] at hshrinks
    exact hshrinks
  unfold Point.due
  cases h with
  | aside n hn => exact Nat.le_refl _
  | cancelled | unknown | init | arrived | lost | said | unsaid =>
    simp only [Stage.cost, due_note]
    omega
  | pending hn | ended _ hn =>
    have hle := (hread hn).1
    simp only [Stage.cost, due_note]
    omega
  | @failed _ _ b e hc hn =>
    have hle := (hread hn).1
    have hcost := cost_ofFailure e
    have hreading : Stage.reading.cost = 2 := rfl
    simp only [due_note]
    omega
  | @read _ _ b c hc hn =>
    have hlt := (hread hn).2 c rfl
    simp only [Stage.cost, due_note]
    omega
  | @settled _ b b' c v error hv hs | @unsettled _ b b' c v error e hv hs =>
    have hdue := due_settle (m := m) b id v
    rw [hs] at hdue
    simp only [Stage.cost] at hdue ⊢
    omega
  | @begun _ _ _ c result hs =>
    have hdue := due_begun hm hs
    have hcost := cost_ofResult result
    have hasking : (Stage.asking c).cost = 2 := rfl
    dsimp only
    omega
  | asleep hs =>
    have hdue := due_begun hm hs
    simp only [Stage.cost]
    omega
  | @resumed _ _ _ c _ hs =>
    have hdue := due_resumed hm hs
    have hwaiting : (Stage.waiting c).cost = 2 := rfl
    dsimp only
    omega
  | still hs =>
    have hdue := due_still hm hs
    simp only [Stage.cost]
    omega
  | @putBack _ b =>
    have hdue := due_settle (m := m) b id .nack
    simp only [Stage.cost]
    omega
  | @closed _ b =>
    have hdue := due_release (m := m) b id
    simp only [Stage.cost, due_note]
    omega

theorem Acts.due_le (h : Acts id deaf p p') (hm : m id = false) : p'.due m ≤ p.due m := by
  induction h with
  | refl => exact Nat.le_refl _
  | tail _ hact ih => exact Nat.le_trans (hact.due_le hm) ih

theorem ofResult_not_gone (result : Except BrokerError Bytes) : Stage.ofResult result ≠ .gone := by
  cases result with
  | ok payload => simp [Stage.ofResult]
  | error e => cases e <;> simp [Stage.ofResult]

theorem ofFailure_not_gone (e : ReadError) : Stage.ofFailure e ≠ .gone := by
  unfold Stage.ofFailure
  split <;> simp

/-- A session that is over has no consumer. -/
theorem Act.gone (h : Act id deaf p p')
    (hp : p.stage = .gone → p.broker.consumer? id = none) (hgone : p'.stage = .gone) :
    p'.broker.consumer? id = none := by
  cases h with
  | aside n hn => exact hp hgone
  | closed => exact consumer?_release _ id
  | failed => exact absurd hgone (ofFailure_not_gone _)
  | begun | resumed => exact absurd hgone (ofResult_not_gone _)
  | cancelled | pending | ended | read | unknown | init | settled | unsettled | asleep | still |
    arrived | lost | putBack | said | unsaid => cases hgone

theorem Acts.gone (h : Acts id deaf p p') (hp : p.stage ≠ .gone) (hgone : p'.stage = .gone) :
    p'.broker.consumer? id = none := by
  induction h with
  | refl => exact absurd hgone hp
  | tail _ hact ih => exact hact.gone ih hgone

theorem cost_stage (s : Session) : s.stage.cost = 2 := by
  unfold stage
  split <;> rfl

theorem stage_not_gone (s : Session) : s.stage ≠ .gone := by
  unfold stage
  split <;> simp

end Session

namespace Service
open Broker

variable {s s' s'' : Service} {id : ConsumerId}

/-- Consumers that serve no session. -/
def plain (sessions : Table ConsumerId Session) (id : ConsumerId) : Bool :=
  (sessions.look id).isNone

theorem plain_put {sessions : Table ConsumerId Session} {session : Session}
    (h : sessions.look id = some session) (session' : Session) :
    plain (sessions.put id session') = plain sessions := by
  funext other
  simp only [plain, Table.look_put]
  split
  · rename_i ho
    simp [ho, h]
  · rfl

theorem weight_eq (s : Service) :
    s.weight = s.broker.due (plain s.sessions) + tally (fun p => p.2.inlet.unread + 2) s.sessions := by
  simp only [weight, pendingCalls, mul_length_filter, due]
  congr 2
  apply tally_congr
  intro p _
  simp [owed, plain]

theorem weight_dequeue (h : s.dequeue = some (id, s')) : s'.weight + 1 = s.weight := by
  unfold dequeue at h
  split at h
  · cases h
  · rename_i rest hready
    cases h
    simp only [weight, pendingCalls, hready, List.length_cons]
    omega

/-- A task that runs adds nothing to what is left to do. -/
theorem weight_run (s : Service) (id : ConsumerId) : (s.run id).weight ≤ s.weight := by
  rw [weight_eq, weight_eq]
  cases hs : s.sessions.look id with
  | none =>
    have hrun : s.run id = { s with broker := s.broker.runNext id } := by simp [run, hs]
    have hplain : plain s.sessions id = true := by simp [plain, hs]
    have hdue := due_runNext hplain s.broker
    rw [hrun]
    exact Nat.add_le_add_right hdue _
  | some session =>
    have hplain : plain s.sessions id = false := by simp [plain, hs]
    have hran := session.run_ran { s.broker with span := session.span } id
    have hcost := Session.cost_stage session
    cases hr : session.run { s.broker with span := session.span } id with
    | mk left b =>
      rw [hr] at hran
      rw [run_session hs hr]
      cases hran with
      | paused inlet position hacts =>
        have hdue := hacts.due_le hplain
        have hcost' := Session.cost_stage { session with inlet, position }
        have hput := tally_put (f := fun p => p.2.inlet.unread + 2) hs
          { session with inlet, position }
        rw [Option.elim_some, plain_put hs]
        change due (plain s.sessions) b + _ ≤ _
        change due _ b + _ + _ ≤ due _ s.broker + _ + _ at hdue
        dsimp only at hdue hput hcost' ⊢
        omega
      | gone inlet hacts =>
        have hdue := hacts.due_le hplain
        have hgone := hacts.gone (Session.stage_not_gone session) rfl
        have hremove := tally_remove (f := fun p => p.2.inlet.unread + 2) hs
        have hsame : due (plain s.sessions) b = due (plain (s.sessions.remove id)) b := by
          refine due_congr hgone fun other hne => ?_
          simp only [plain, Table.look_remove_of_ne _ hne]
        rw [Option.elim_none]
        change due (plain (s.sessions.remove id)) b + _ ≤ _
        change due _ b + 0 + _ ≤ due _ s.broker + _ + _ at hdue
        dsimp only at hdue hremove ⊢
        omega

theorem dequeue_eq_none : s.dequeue = none ↔ s.broker.ready = [] := by
  unfold dequeue
  cases s.broker.ready <;> simp

/-- Enough turns empty the queue. -/
theorem runMany_done {turns : Nat} (h : s.weight ≤ turns) : (runMany turns s).broker.ready = [] := by
  induction turns generalizing s with
  | zero =>
    have hnone : s.broker.ready.length = 0 := by
      simp only [weight] at h
      omega
    exact List.length_eq_zero_iff.mp hnone
  | succ turns ih =>
    simp only [runMany]
    split
    · rename_i hd
      exact dequeue_eq_none.mp hd
    · rename_i id s' hd
      have htaken := weight_dequeue hd
      have hrun := weight_run s' id
      exact ih (by omega)

/-- After a drain nothing is left to run. -/
theorem drain_done (s : Service) : s.drain.broker.ready = [] := runMany_done (Nat.le_refl _)

theorem dequeue_none (h : s.broker.ready = []) : s.dequeue = none := dequeue_eq_none.mpr h

theorem runMany_idle (h : s.broker.ready = []) (turns : Nat) : runMany turns s = s := by
  cases turns with
  | zero => rfl
  | succ turns => simp [runMany, dequeue_none h]

/-- More turns than enough change nothing. -/
theorem runMany_enough {turns : Nat} (h : s.weight ≤ turns) : runMany turns s = s.drain := by
  have hmore : ∀ turns more (s : Service), s.weight ≤ turns →
      runMany (turns + more) s = runMany turns s := by
    intro turns
    induction turns with
    | zero =>
      intro more s h
      exact runMany_idle (runMany_done h) _
    | succ turns ih =>
      intro more s h
      rw [Nat.succ_add]
      simp only [runMany]
      split
      · rfl
      · rename_i id s' hd
        have htaken := weight_dequeue hd
        have hrun := weight_run s' id
        exact ih more _ (by omega)
  obtain ⟨more, rfl⟩ := Nat.exists_eq_add_of_le h
  exact hmore _ _ _ (Nat.le_refl _)

/-- One task runs. -/
def Task (s s' : Service) : Prop := ∃ id taken, s.dequeue = some (id, taken) ∧ s' = taken.run id

/-- Tasks run, one after another. -/
abbrev Tasks : Service → Service → Prop := Relation.ReflTransGen Task

theorem drain_idle (h : s.broker.ready = []) : s.drain = s := runMany_idle h _

/-- The first task is part of the drain. -/
theorem drain_task (h : Task s s') : s.drain = s'.drain := by
  obtain ⟨id, taken, hd, rfl⟩ := h
  have htaken := weight_dequeue hd
  have hrun := weight_run taken id
  have hturns : (taken.run id).weight ≤ taken.weight := by omega
  rw [drain, ← htaken]
  simp only [runMany, hd]
  exact runMany_enough hturns

theorem drain_tasks (h : Tasks s s') : s.drain = s'.drain := by
  induction h with
  | refl => rfl
  | tail _ htask ih => rw [ih, drain_task htask]

/-- Wherever the queue is empty, that is where the drain ends. -/
theorem Tasks.drained (h : Tasks s s') (hready : s'.broker.ready = []) : s.drain = s' := by
  rw [drain_tasks h, drain_idle hready]

theorem tasks_drain (s : Service) : Tasks s s.drain := by
  have hmany : ∀ turns (s : Service), Tasks s (runMany turns s) := by
    intro turns
    induction turns with
    | zero => exact fun s => .refl
    | succ turns ih =>
      intro s
      simp only [runMany]
      split
      · exact .refl
      · rename_i id s' hd
        exact .head ⟨id, s', hd, rfl⟩ (ih _)
  exact hmany _ s

end Service

end TopicQueue

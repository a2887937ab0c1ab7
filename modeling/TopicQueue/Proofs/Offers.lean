import TopicQueue.Proofs.Drains
import TopicQueue.Proofs.LoneConsumer
import TopicQueue.Proofs.Sleepers

namespace TopicQueue

/-- A message has come to whoever asked for it. -/
def Note.isDelivery : Note → Bool
  | .returned _ (.ok _) | .wrote _ (.message _) => true
  | _ => false

/-- Nothing has been delivered. -/
def History.Quiet (h : History) : Prop := ∀ n ∈ h, n.isDelivery = false

theorem History.Quiet.cons {n : Note} {h : History} (hn : n.isDelivery = false) (hq : h.Quiet) :
    Quiet (n :: h) :=
  List.forall_mem_cons.mpr ⟨hn, hq⟩

theorem History.Quiet.append {h h' : History} (hq : h.Quiet) (hq' : h'.Quiet) :
    Quiet (h ++ h') := by
  intro n hn
  rcases List.mem_append.mp hn with hn | hn
  · exact hq n hn
  · exact hq' n hn

namespace Broker

variable {b b' b'' : Broker} {id w : ConsumerId} {c : Consumer} {topic : String}
  {ws : List ConsumerId} {r : Option ConsumerId} {payload : Bytes}

/-- Those who sleep for a topic, in the order of registration. -/
def sleepers (b : Broker) (topic : String) : List ConsumerId :=
  match b.roster? topic with
  | none => []
  | some r => r.members.filter b.isWaiting

/-- Where nobody sleeps, a notification is lost. -/
theorem notify_unslept (h : b.sleepers topic = []) (reason : WakeReason) :
    ∃ n : Note, n.isDelivery = false ∧ b.notify topic reason = b.note n := by
  unfold notify
  unfold sleepers at h
  split
  · exact ⟨_, rfl, rfl⟩
  · rename_i roster hr
    rw [hr] at h
    have hnone : roster.firstWaiting? b.isWaiting = none :=
      List.find?_eq_none.mpr (List.filter_eq_nil_iff.mp h)
    rw [hnone]
    exact ⟨_, rfl, rfl⟩

/-- A notification wakes the sleeper that registered first. -/
theorem notify_slept (h : b.sleepers topic = w :: ws) (reason : WakeReason) :
    b.notify topic reason = (b.wake w).note (.woke w topic reason) := by
  unfold sleepers at h
  split at h
  · cases h
  · rename_i roster hr
    have hfirst : roster.firstWaiting? b.isWaiting = some w := by
      rw [Roster.firstWaiting?, ← List.head?_filter, h, List.head?_cons]
    simp [notify, hr, hfirst]

theorem isWaiting_eq (h : b.consumer? id = some c) : b.isWaiting id = c.waiting := by
  simp [isWaiting, h]

/-- A notification leaves everybody alone who does not wait. -/
theorem notify_unwaiting (h : b.isWaiting id = false) (topic : String) (reason : WakeReason) :
    (b.notify topic reason).consumer? id = b.consumer? id := by
  rcases spared_notify b topic reason id with he | ⟨c, hc, hup, -⟩
  · exact he
  · rw [isWaiting_eq hc, hup] at h
    cases h

/-- Those who sleep are those whose flag is up. -/
theorem Attended.mem_sleepers (ha : b.Attended r) :
    id ∈ b.sleepers topic ↔ ∃ c, b.consumer? id = some c ∧ c.topic = topic ∧ c.wait = .parked := by
  unfold sleepers
  constructor
  · intro hm
    split at hm
    · cases hm
    · rename_i roster hr
      obtain ⟨hm, hw⟩ := List.mem_filter.mp hm
      obtain ⟨c, hc, ht⟩ := ha.enrolled topic roster hr id hm
      rw [isWaiting_eq hc] at hw
      exact ⟨c, hc, ht, (ha.flagged id c hc).mp hw⟩
  · rintro ⟨c, hc, rfl, hw⟩
    obtain ⟨roster, hr, hm⟩ := ha.listed id c hc
    rw [hr]
    refine List.mem_filter.mpr ⟨hm, ?_⟩
    rw [isWaiting_eq hc]
    exact (ha.flagged id c hc).mpr hw

theorem Ordered.sleepers_sorted (h : b.Ordered) (topic : String) :
    (b.sleepers topic).Pairwise (· < ·) := by
  unfold sleepers
  split
  · exact .nil
  · rename_i roster hr
    exact (h.sorted topic roster hr).filter _

theorem sleepers_same (ht : b'.topics = b.topics) (hw : ∀ id, b'.isWaiting id = b.isWaiting id) :
    b'.sleepers topic = b.sleepers topic := by
  simp only [sleepers, roster?, ht, funext hw]

/-- A consumer that has not slept, and does not sleep, has changed. -/
theorem sleepers_became (hc : b.consumer? id = some c) (hw : c.waiting = false) (f : Faults)
    (j : Journal) (s : Store) {c' : Consumer} (hw' : c'.waiting = false) :
    (b.became f j s id c').sleepers topic = b.sleepers topic := by
  refine sleepers_same rfl fun other => ?_
  by_cases hne : other = id
  · rw [hne, isWaiting_eq hc, isWaiting_eq (consumer?_became_self ..), hw, hw']
  · simp only [isWaiting, consumer?_became hne]

/-- Whoever leaves has not slept. -/
theorem sleepers_forget (hw : b.isWaiting id = false) (topic t : String) :
    (b.forget id t).sleepers topic = b.sleepers topic := by
  have hflags : ∀ other, (b.forget id t).isWaiting other = b.isWaiting other := by
    intro other
    by_cases hne : other = id
    · rw [hne, hw]
      simp [isWaiting, consumer?_forget_eq]
    · simp only [isWaiting, consumer?_forget hne]
  unfold sleepers
  rw [roster?_forget, funext hflags]
  by_cases ht : topic = t
  · rw [if_pos ht, ht]
    cases hr : b.roster? t with
    | none => rfl
    | some roster =>
      have hstruck : (roster.strike id).members.filter b.isWaiting =
          roster.members.filter b.isWaiting := by
        rw [Roster.strike, List.filter_filter]
        apply List.filter_congr
        intro other _
        by_cases hne : other = id <;> simp [hne, hw]
      rw [Option.map_some, Option.filter]
      cases hempty : (roster.strike id).isEmpty with
      | false => simpa using hstruck
      | true =>
        have hnone : (roster.strike id).members = [] := by simpa [Roster.isEmpty] using hempty
        rw [hnone] at hstruck
        simpa using hstruck
  · rw [if_neg ht]

/-- The first who slept for a topic has been woken on behalf of a consumer, and nobody else has been
touched. -/
structure HandedOn (id : ConsumerId) (topic : String) (b b' : Broker) : Prop where
  woken : ∀ w, (b.sleepers topic).head? = some w → w ≠ id ∧
    ∃ d, b.consumer? w = some d ∧ d.topic = topic ∧ d.wait = .parked ∧
      b'.consumer? w = some { d with waiting := false, wait := .woken } ∧ w ∈ b'.ready
  others : ∀ other, other ≠ id → (b.sleepers topic).head? ≠ some other →
    b'.consumer? other = b.consumer? other

theorem HandedOn.note (h : HandedOn id topic b b') (n : Note) : HandedOn id topic b (b'.note n) :=
  ⟨h.woken, h.others⟩

theorem HandedOn.forget (h : HandedOn id topic b b') (t : String) :
    HandedOn id topic b (b'.forget id t) where
  woken w hw := by
    obtain ⟨hne, d, hd, ht, hparked, hwoken, hready⟩ := h.woken w hw
    exact ⟨hne, d, hd, ht, hparked, (consumer?_forget hne t).trans hwoken, hready⟩
  others other hne hw := (consumer?_forget hne t).trans (h.others other hne hw)

/-- A consumer that does not wait changes, and tells its topic. -/
theorem Shifted.hands_on {m : Broker} {c' : Consumer} (h : Shifted b m id c c')
    (ha : b.Attended r) (hw : c.waiting = false) (hw' : c'.waiting = false) (reason : WakeReason) :
    HandedOn id topic b (m.notify topic reason) := by
  have hsleepers : m.sleepers topic = b.sleepers topic := by
    refine sleepers_same h.topics fun other => ?_
    by_cases hne : other = id
    · rw [hne, isWaiting_eq h.before, isWaiting_eq h.after_self, hw, hw']
    · simp only [isWaiting, h.after_of_ne hne]
  have hsleeper : ∀ w ∈ b.sleepers topic, w ≠ id ∧ ∃ d, b.consumer? w = some d ∧
      d.topic = topic ∧ d.wait = .parked := by
    intro w hm
    obtain ⟨d, hd, ht, hparked⟩ := ha.mem_sleepers.mp hm
    refine ⟨?_, d, hd, ht, hparked⟩
    rintro rfl
    rw [h.before] at hd
    cases hd
    rw [(ha.flagged _ _ h.before).mpr hparked] at hw
    cases hw
  constructor
  case woken =>
    intro w hhead
    obtain ⟨ws, hws⟩ := List.head?_eq_some_iff.mp hhead
    obtain ⟨hne, d, hd, ht, hparked⟩ := hsleeper w (List.mem_of_head? hhead)
    have hm : m.consumer? w = some d := (h.after_of_ne hne).trans hd
    rw [notify_slept (hsleepers.trans hws)]
    refine ⟨hne, d, hd, ht, hparked, ?_, ?_⟩
    · rw [consumer?_note, consumer?_wake hm, if_pos rfl, Consumer.roused, if_pos hparked]
    · have hwake : m.wake w =
          (m.setConsumer w { d with waiting := false, wait := .woken }).enqueue w := by
        simp [wake, hm, hparked]
      rw [hwake]
      exact mem_enqueue _ w
  case others =>
    intro other hne hhead
    cases hws : m.sleepers topic with
    | nil =>
      obtain ⟨n, -, he⟩ := notify_unslept hws reason
      rw [he, consumer?_note, h.after_of_ne hne]
    | cons w ws =>
      rw [hsleepers] at hws
      obtain ⟨hid, d, hd, -⟩ := hsleeper w (by rw [hws]; exact List.mem_cons_self)
      have hnot : other ≠ w := by
        rintro rfl
        exact hhead (by rw [hws]; rfl)
      rw [notify_slept (hsleepers.trans hws), consumer?_note,
        consumer?_wake ((h.after_of_ne hid).trans hd), if_neg hnot, h.after_of_ne hne]

/-- A sleeper is woken where no task is in the queue. -/
theorem wake_parked (hready : b.ready = []) (hc : b.consumer? w = some c)
    (hw : c.wait = .parked) :
    b.wake w = { b with
      consumers := b.consumers.put w { c with waiting := false, wait := .woken }
      ready := [w] } := by
  simp [wake, hc, hw, enqueue, setConsumer, hready]

/-- The first sleeper has been woken. -/
theorem sleepers_woken (h : b.sleepers topic = w :: ws) (hs : (w :: ws).Pairwise (· < ·))
    {d : Consumer} (hd : d.waiting = false) (ready : List ConsumerId) (j : Journal) :
    sleepers { b with consumers := b.consumers.put w d, ready, journal := j } topic = ws := by
  have hflags : ∀ other, isWaiting { b with consumers := b.consumers.put w d, ready, journal := j }
      other = (b.isWaiting other && other != w) := by
    intro other
    by_cases hne : other = w
    · simp [isWaiting, consumer?, hne, hd]
    · simp [isWaiting, consumer?, Table.look_put, hne]
  unfold sleepers at h ⊢
  simp only [roster?, funext hflags] at h ⊢
  split at h
  · cases h
  · rename_i roster hr
    have hothers : ∀ other ∈ ws, (other != w) = true := by
      intro other hm
      simpa using Nat.ne_of_gt (List.rel_of_pairwise_cons hs hm)
    have hsplit : roster.members.filter (fun other => b.isWaiting other && other != w) =
        (roster.members.filter b.isWaiting).filter (· != w) := by
      rw [List.filter_filter]
      simp only [Bool.and_comm]
    rw [hsplit, h, List.filter_cons, List.filter_eq_self.mpr hothers]
    simp

/-- A message that nobody has claimed is at the head of its topic; these tasks are in the queue, and
these consumers sleep for the topic. -/
structure Stocked (b : Broker) (topic : String) (payload : Bytes) (rest : List Item)
    (ready ws : List ConsumerId) : Prop where
  isOpen : b.store.closed = false
  unarmed : b.faults.Unarmed
  queue : b.store.queue topic = ⟨.ok payload :: rest, false⟩
  ready : b.ready = ready
  sleepers : b.sleepers topic = ws

namespace Stocked

variable {rest : List Item} {ready : List ConsumerId}

theorem note (h : b.Stocked topic payload rest ready ws) (n : Note) :
    (b.note n).Stocked topic payload rest ready ws :=
  ⟨h.isOpen, h.unarmed, h.queue, h.ready, h.sleepers⟩

theorem forget (h : b.Stocked topic payload rest ready ws) (hw : b.isWaiting id = false)
    (t : String) : (b.forget id t).Stocked topic payload rest ready ws :=
  ⟨h.isOpen, h.unarmed, h.queue, h.ready, (sleepers_forget hw topic t).trans h.sleepers⟩

/-- A notification wakes the first who sleeps, and nobody else. -/
theorem notify (h : b.Stocked topic payload rest [] (w :: ws)) (hs : (w :: ws).Pairwise (· < ·))
    (hc : b.consumer? w = some c) (hw : c.wait = .parked) (reason : WakeReason) :
    (b.notify topic reason).Stocked topic payload rest [w] ws ∧
    (b.notify topic reason).consumer? w = some { c with waiting := false, wait := .woken } ∧
    (b.notify topic reason).notes = .woke w topic reason :: b.notes := by
  rw [notify_slept h.sleepers, wake_parked h.ready hc hw]
  exact ⟨⟨h.isOpen, h.unarmed, h.queue, rfl, sleepers_woken h.sleepers hs rfl _ _⟩,
    Table.look_put_self .., rfl⟩

end Stocked

/-- The broker once a session that has put its message back has ended. -/
def departed (b : Broker) (id : ConsumerId) (topic : String) : Broker :=
  { (((b.note .returnedInFlight).note (.finished id)).forget id topic).note (.ended id) with
    span := none }

@[simp] theorem notes_note (b : Broker) (n : Note) : (b.note n).notes = n :: b.notes := rfl

theorem departed_notes (b : Broker) (id : ConsumerId) (topic : String) :
    (b.departed id topic).notes =
      .ended id :: .deregistered id topic :: .finished id :: .returnedInFlight :: b.notes := rfl

theorem Stocked.departed {rest : List Item} {ready : List ConsumerId}
    (h : b.Stocked topic payload rest ready ws) (hw : b.isWaiting id = false) (t : String) :
    (b.departed id t).Stocked topic payload rest ready ws :=
  have hleft := (((h.note .returnedInFlight).note (.finished id)).forget hw t).note (.ended id)
  ⟨hleft.isOpen, hleft.unarmed, hleft.queue, hleft.ready, hleft.sleepers⟩

/-- What a look that has found a message notes. -/
def found (b : Broker) (id : ConsumerId) (topic : String) (payload : Bytes) : Journal :=
  [⟨b.span, .claimed id topic payload⟩, ⟨b.span, .called .fetchNext topic none⟩,
   ⟨b.span, .woken id topic⟩]

/-- Whoever has been woken for a message that is there gets it. -/
theorem resume_found {s : Store} (hc : b.consumer? id = some c) (hw : c.wait = .woken)
    (hfree : c.cancelled = false) (hu : b.faults.Unarmed)
    (hf : b.store.fetchNext c.topic = .ok (some payload, s)) :
    b.resume id = (some (.ok payload), b.became b.faults (b.found id c.topic payload) s id
      { c with holding := true }.done) := by
  have hseek := seek_found (b := b.note (.woken id c.topic)) hc hu hfree hf
  simp only [resume, hc, hfree, hw, if_true, Bool.false_eq_true, if_false, hseek]
  rfl

theorem park_became (b : Broker) (j : Journal) (id : ConsumerId) (c : Consumer) :
    (b.became b.faults j b.store id c.alert).park id =
      b.became b.faults j b.store id c.asleep := by
  simp [park, became, setConsumer, consumer?, Consumer.asleep]

/-- Whoever looks for nothing falls asleep, after a second look if a wake has been kept. -/
theorem seek_unfound (hc : b.consumer? id = some c) (hfree : c.cancelled = false)
    (hu : b.faults.Unarmed) (hf : b.store.fetchNext c.topic = .ok (none, b.store)) :
    ∃ j : Journal, History.Quiet (j.map (·.note)) ∧
      b.seek id = (none, b.became b.faults j b.store id c.asleep) := by
  have hfirst : b.look id c = _ := look_unfound hu hfree hf
  have hsecond : ((b.became b.faults [⟨b.span, .called .fetchNext c.topic none⟩] b.store id
      c.alert).note (.woken id c.topic)).look id c = _ := look_unfound hu hfree hf
  simp only [seek, hc, hfirst, hsecond]
  split
  · refine ⟨[⟨b.span, .called .fetchNext c.topic none⟩, ⟨b.span, .woken id c.topic⟩,
      ⟨b.span, .called .fetchNext c.topic none⟩], by simp [History.Quiet, Note.isDelivery], ?_⟩
    rw [← park_became]
    simp [became, note]
  · exact ⟨[⟨b.span, .called .fetchNext c.topic none⟩], by simp [History.Quiet, Note.isDelivery],
      by rw [← park_became]⟩

/-- Whoever has been woken for nothing falls asleep again. -/
theorem resume_unfound (hc : b.consumer? id = some c) (hw : c.wait = .woken)
    (hfree : c.cancelled = false) (hu : b.faults.Unarmed)
    (hf : b.store.fetchNext c.topic = .ok (none, b.store)) :
    ∃ j : Journal, History.Quiet (j.map (·.note)) ∧
      b.resume id = (none, b.became b.faults j b.store id c.asleep) := by
  have hc' : (b.note (.woken id c.topic)).consumer? id = some c := hc
  obtain ⟨j, hquiet, hseek⟩ := seek_unfound hc' hfree hu hf
  refine ⟨j ++ [⟨b.span, .woken id c.topic⟩], ?_, ?_⟩
  · rw [List.map_append]
    exact hquiet.append (by simp [History.Quiet, Note.isDelivery])
  · simp only [resume, hc, hfree, hw, if_true, Bool.false_eq_true, if_false, hseek]
    simp [became, note]

/-- The journal goes on. -/
abbrev Grows (b b' : Broker) : Prop := b.notes <:+ b'.notes

theorem Adds.grows (h : Adds id b b') : b.Grows b' := by
  obtain ⟨new, he, -⟩ := h
  exact ⟨new, he.symm⟩

theorem grows_note (b : Broker) (n : Note) : b.Grows (b.note n) := List.suffix_cons n b.notes

end Broker

namespace Session
open Broker

variable {s : Session} {b b' : Broker} {id : ConsumerId} {deaf : Bool} {p p' : Point} {c : Consumer}
  {command : Command} {payload : Bytes}

theorem Act.grows (h : Act id deaf p p') : p.broker.Grows p'.broker := by
  cases h with
  | aside | ended | failed | read | arrived | said => exact grows_note _ _
  | cancelled | pending | unknown | init | lost | unsaid => exact List.suffix_rfl
  | @settled _ b _ _ v _ _ hs | @unsettled _ b _ _ v _ _ _ hs =>
    have hsettle := (adds_settle b id v).grows
    rwa [hs] at hsettle
  | putBack => exact (adds_settle _ id .nack).grows
  | @begun _ b _ _ _ hs | @asleep _ b _ _ hs =>
    have hbegin := (adds_begin b id).grows
    rwa [hs] at hbegin
  | @resumed _ b _ _ _ hs | @still _ b _ _ hs =>
    have hresume := (adds_resume b id).grows
    rwa [hs] at hresume
  | closed => exact (adds_release _ id).grows.trans (grows_note _ _)

theorem Acts.grows (h : Acts id deaf p p') : p.broker.Grows p'.broker := by
  induction h with
  | refl => exact List.suffix_rfl
  | tail _ hact ih => exact ih.trans hact.grows

theorem Ran.grows {r : Option Session × Broker} (h : Ran s id p r) : p.broker.Grows r.2 := by
  cases h with
  | paused inlet position h => exact h.grows
  | gone inlet h => exact h.grows

theorem run_still (hp : s.position = .awaiting command) (hr : b.resume id = (none, b')) :
    s.run b id = (some s, b') := by
  simp only [run, hp, hr]

/-- A session whose client is there writes the message that it has waited for, and goes on. -/
theorem run_hears {b₁ : Broker} (hp : s.position = .awaiting command) (hd : s.deaf = false)
    (hr : b.resume id = (some (.ok payload), b₁)) :
    (b₁.note (.wrote id (.message payload))).Grows (s.run b id).2 := by
  have hserve : Ran s id _ (serve s id (s.inlet.unread + 1) s.inlet
    ((b₁.note (.wrote id (.message payload))).note (.wroteMessage command payload.length))) :=
    serve_ran ..
  simp only [run, hp, hr, conclude, answer, write, hd, Bool.false_eq_true, if_false]
  exact (grows_note _ _).trans hserve.grows

/-- What a session notes of a message that it cannot deliver, until it has put it back. -/
def declined (b : Broker) (id : ConsumerId) (topic : String) (payload : Bytes) : Journal :=
  [⟨b.span, .requeued id topic⟩, ⟨b.span, .called .requeue topic none⟩, ⟨b.span, .writeFailed⟩] ++
    b.found id topic payload

/-- A session whose client cannot be reached puts the message back and ends. -/
theorem run_declines {s₁ s₂ : Store} (hp : s.position = .awaiting command) (hd : s.deaf = true)
    (hc : b.consumer? id = some c) (hw : c.wait = .woken) (hfree : c.cancelled = false)
    (hh : c.holding = false) (hu : b.faults.Unarmed)
    (hf : b.store.fetchNext c.topic = .ok (some payload, s₁))
    (hs : s₁.requeue c.topic = .ok s₂) :
    s.run b id = (none, close (((b.became b.faults (declined b id c.topic payload) s₂ id
      c.done).notify c.topic .nack).note .returnedInFlight) id) := by
  have hresume := resume_found hc hw hfree hu hf
  have hgot : ((b.became b.faults (b.found id c.topic payload) s₁ id
      { c with holding := true }.done).note .writeFailed).consumer? id =
      some { c with holding := true }.done := by rw [consumer?_note, consumer?_became_self]
  have hsettle := settle_taken (v := .nack) hgot rfl hu hs
  have hleft : { { c with holding := true }.done with holding := false } = c.done := by
    simp [Consumer.done, hh]
  rw [hleft] at hsettle
  simp only [run, hp, hresume, conclude, answer, write, hd, if_true, putBack, hsettle]
  simp [became, note, declined, Verdict.record, Verdict.call, Verdict.reason, Consumer.done]

/-- The end of a session that has nothing at hand. -/
theorem close_idle (hc : b.consumer? id = some c) (hh : c.holding = false) :
    close b id = (((b.note (.finished id)).forget id c.topic).note (.ended id)) := by
  have hc' : (b.note (.finished id)).consumer? id = some c := hc
  rw [close, release_idle hc' hh]

end Session

namespace Service
open Broker

variable {s s' : Service} {id : ConsumerId}

theorem run_grows (s : Service) (id : ConsumerId) : s.broker.Grows (s.run id).broker := by
  cases hs : s.sessions.look id with
  | none =>
    have hrun : s.run id = { s with broker := s.broker.runNext id } := by simp [run, hs]
    rw [hrun]
    exact (adds_runNext s.broker id).grows
  | some session =>
    have hran := (session.run_ran { s.broker with span := session.span } id).grows
    cases hr : session.run { s.broker with span := session.span } id with
    | mk left b =>
      rw [hr] at hran
      rw [run_session hs hr]
      exact hran

theorem Tasks.grows (h : Tasks s s') : s.broker.Grows s'.broker := by
  induction h with
  | refl => exact List.suffix_rfl
  | tail _ htask ih =>
    obtain ⟨id, taken, hd, rfl⟩ := htask
    obtain ⟨rest, -, hbroker, -⟩ := dequeue_some hd
    have hrun := run_grows taken id
    rw [hbroker] at hrun
    exact ih.trans hrun

end Service

/-- A session has put a message back, which has woken this one, and has ended. -/
def History.PassedOn (topic : String) (id next : ConsumerId) (h : History) : Prop :=
  ∃ after between before, h = after ++ .ended id ::
    (between ++ .woke next topic .nack :: .requeued id topic :: before)

theorem History.PassedOn.later {topic : String} {id next : ConsumerId} {h : History}
    (hp : h.PassedOn topic id next) (h' : History) : PassedOn topic id next (h' ++ h) := by
  obtain ⟨after, between, before, rfl⟩ := hp
  exact ⟨h' ++ after, between, before, by simp⟩

theorem History.PassedOn.earlier {topic : String} {id next : ConsumerId} {h : History}
    (hp : h.PassedOn topic id next) (h' : History) : PassedOn topic id next (h ++ h') := by
  obtain ⟨after, between, before, rfl⟩ := hp
  exact ⟨after, between, before ++ h', by simp⟩

namespace Scene
open Broker

variable {s : Scene} {topic : String} {payload : Bytes} {rest : List Item} {w : ConsumerId}
  {ws : List ConsumerId} {c : Consumer}

/-- A session whose client cannot be reached. -/
def isDeaf (s : Scene) (id : ConsumerId) : Bool := (s.service.sessions.look id).any (·.deaf)

theorem isDeaf_iff : s.isDeaf w = true ↔
    ∃ session, s.service.sessions.look w = some session ∧ session.deaf = true := by
  cases hs : s.service.sessions.look w <;> simp [isDeaf, hs]

/-- How it shows that one has got a message. -/
def delivery (s : Scene) (id : ConsumerId) (payload : Bytes) : Note :=
  if (s.service.sessions.look id).isSome then .wrote id (.message payload)
  else .returned id (.ok payload)

/-- A message that nobody has claimed is at the head of its topic, one has been woken for it and is
about to run, and these sleep. -/
structure Offered (s : Scene) (topic : String) (payload : Bytes) (rest : List Item)
    (w : ConsumerId) (ws : List ConsumerId) : Prop where
  reachable : s.Reachable
  stocked : s.broker.Stocked topic payload rest [w] ws
  woken : ∃ c, s.broker.consumer? w = some c ∧ c.topic = topic ∧ c.wait = .woken ∧
    c.cancelled = false

theorem Reachable.ran {service : Service} (h : s.Reachable) (ht : Service.Task s.service service) :
    Reachable { s with service } := by
  obtain ⟨id, taken, hd, rfl⟩ := ht
  exact h.task hd

/-- The next task, where there is one only. -/
theorem dequeue_only (h : s.broker.ready = [w]) :
    s.service.dequeue = some (w, { s.service with broker := { s.broker with ready := [] } }) := by
  have hready : s.service.broker.ready = [w] := h
  unfold Service.dequeue
  rw [hready]
  rfl

/-- A session that has been woken has waited for a message. -/
theorem Reachable.awaits (hs : s.Reachable) (hc : s.broker.consumer? w = some c)
    (hw : c.wait = .woken) {session : Session} (hid : s.service.sessions.look w = some session) :
    ∃ command, session.position = .awaiting command := by
  have hstands := hs.orderly.service.stands w session hid
  unfold Session.Stands at hstands
  split at hstands
  · have hidle := hstands.idle c hc
    rw [hw] at hidle
    cases hidle
  · exact ⟨_, by assumption⟩

/-- Whoever has been woken for nothing falls asleep again, and nothing else happens. -/
theorem Reachable.sleeps_again (hs : s.Reachable) (hready : s.broker.ready = [w])
    (hc : s.broker.consumer? w = some c) (hw : c.wait = .woken) (hfree : c.cancelled = false)
    (hu : s.broker.faults.Unarmed)
    (hf : s.broker.store.fetchNext c.topic = .ok (none, s.broker.store)) :
    ∃ service new, Service.Task s.service service ∧ History.Quiet new ∧
      service.broker.notes = new ++ s.broker.notes ∧ service.broker.ready = [] ∧
      (∀ id, service.broker.consumer? id =
        if id = w then some c.asleep else s.broker.consumer? id) ∧
      ∀ id, service.sessions.look id = s.service.sessions.look id := by
  have htask : Service.Task s.service _ := ⟨w, _, dequeue_only hready, rfl⟩
  cases hid : s.service.sessions.look w with
  | none =>
    obtain ⟨j, hquiet, hresume⟩ :=
      resume_unfound (b := { s.broker with ready := [] }) hc hw hfree hu hf
    have hrun : ∀ b : Broker, Service.run { s.service with broker := b } w =
        { s.service with broker := b.runNext w } := by
      intro b
      simp [Service.run, hid]
    have hc' : { s.broker with ready := [] }.consumer? w = some c := hc
    rw [hrun] at htask
    simp only [runNext, hc', hw, hresume] at htask
    exact ⟨_, _, htask, hquiet, List.map_append, rfl,
      fun id => Table.look_put s.broker.consumers id w c.asleep, fun _ => rfl⟩
  | some session =>
    obtain ⟨command, hp⟩ := hs.awaits hc hw hid
    obtain ⟨j, hquiet, hresume⟩ := resume_unfound
      (b := { s.broker with ready := [], span := session.span }) hc hw hfree hu hf
    rw [Service.run_session (s := { s.service with broker := { s.broker with ready := [] } }) hid
      (Session.run_still hp hresume)] at htask
    refine ⟨_, _, htask, hquiet, List.map_append, rfl,
      fun id => Table.look_put s.broker.consumers id w c.asleep, fun id => ?_⟩
    rw [Option.elim_some, Table.look_put]
    split
    · rename_i he
      rw [he, hid]
    · rfl

namespace Offered

theorem fetched (h : Offered s topic payload rest w ws) :
    ∃ s₁, s.broker.store.fetchNext topic = .ok (some payload, s₁) ∧ s₁.Sound ∧
      s₁.closed = false ∧ s₁.queue topic = ⟨.ok payload :: rest, true⟩ := by
  have hsound : s.broker.store.Sound := (h.reachable.accounted .refl).sound
  obtain ⟨s₁, hf, ho⟩ := hsound.fetchNext_first h.stocked.isOpen h.stocked.queue
  obtain ⟨hs₁, -, -, hq⟩ := hsound.fetched hf
  refine ⟨s₁, hf, hs₁, ho, ?_⟩
  rw [hq, Function.update_self, h.stocked.queue]

/-- Whoever can be reached gets the message, before anybody gets any other. -/
theorem delivered (h : Offered s topic payload rest w ws) (hd : s.isDeaf w = false) :
    ∃ service after before, Service.Task s.service service ∧ History.Quiet before ∧
      service.broker.notes = after ++ s.delivery w payload :: (before ++ s.broker.notes) := by
  obtain ⟨c, hc, rfl, hw, hfree⟩ := h.woken
  obtain ⟨s₁, hf, -⟩ := h.fetched
  have htask : Service.Task s.service _ := ⟨w, _, dequeue_only h.stocked.ready, rfl⟩
  have hquiet : ∀ b : Broker, History.Quiet ((b.found w c.topic payload).map (·.note)) := by
    intro b
    simp [History.Quiet, found, Note.isDelivery]
  cases hs : s.service.sessions.look w with
  | none =>
    have hresume := resume_found (b := { s.broker with ready := [] }) hc hw hfree h.stocked.unarmed hf
    refine ⟨_, [], _, htask, hquiet { s.broker with ready := [] }, ?_⟩
    have hrun : ∀ b : Broker, Service.run { s.service with broker := b } w =
        { s.service with broker := b.runNext w } := by
      intro b
      simp [Service.run, hs]
    rw [hrun]
    have hc' : { s.broker with ready := [] }.consumer? w = some c := hc
    simp only [runNext, hc', hw, hresume, delivery, hs]
    simp [notes, note, became]
  | some session =>
    obtain ⟨command, hp⟩ := h.reachable.awaits hc hw hs
    have hhears : session.deaf = false := by simpa [isDeaf, hs] using hd
    have hresume := resume_found (b := { s.broker with ready := [], span := session.span })
      hc hw hfree h.stocked.unarmed hf
    have hgrows := Session.run_hears hp hhears hresume
    obtain ⟨after, hafter⟩ := hgrows
    refine ⟨_, after, _, htask, hquiet { s.broker with ready := [], span := session.span }, ?_⟩
    have hrun : session.run { s.broker with ready := [], span := session.span } w =
        ((session.run { s.broker with ready := [], span := session.span } w).1,
          (session.run { s.broker with ready := [], span := session.span } w).2) := rfl
    rw [Service.run_session (s := { s.service with broker := { s.broker with ready := [] } }) hs hrun]
    change (session.run { s.broker with ready := [], span := session.span } w).2.notes = _
    rw [← hafter]
    simp [delivery, hs, notes, note, became]

/-- Whoever cannot be reached puts the message back, tells the next, and is gone. -/
theorem declines (h : Offered s topic payload rest w ws) (hd : s.isDeaf w = true) :
    ∃ (m : Broker) (before : History), History.Quiet before ∧
      m.notes = .requeued w topic :: (before ++ s.broker.notes) ∧
      m.Stocked topic payload rest [] ws ∧
      (∀ other, other ≠ w → m.consumer? other = s.broker.consumer? other) ∧
      m.isWaiting w = false ∧
      Service.Task s.service
        ⟨(m.notify topic .nack).departed w topic, s.service.sessions.remove w⟩ := by
  obtain ⟨c, hc, rfl, hw, hfree⟩ := h.woken
  obtain ⟨s₁, hf, hs₁, ho₁, hq₁⟩ := h.fetched
  have hclaimed : (s₁.queue c.topic).claimed = true := by rw [hq₁]
  obtain ⟨s₂, hs₂, ho₂⟩ := Store.apply_claimed ho₁ hclaimed .nack
  obtain ⟨hsound₂, -, hq₂⟩ := hs₁.applied hs₂
  obtain ⟨session, hs, hdeaf⟩ := isDeaf_iff.mp hd
  obtain ⟨command, hp⟩ := h.reachable.awaits hc hw hs
  have hh := h.reachable.ordered.empty w c hc (.inr hw)
  have hflag : c.waiting = false := h.reachable.watched.1.unflagged hc (by simp [hw])
  -- The broker once the message is back, before anybody has been told.
  let b : Broker := { s.broker with ready := [], span := session.span }
  let m := b.became b.faults (Session.declined b w c.topic payload) s₂ w c.done
  have hdown : m.isWaiting w = false := isWaiting_eq (consumer?_became_self ..)
  have hstocked : m.Stocked c.topic payload rest [] ws := by
    refine ⟨ho₂, h.stocked.unarmed, ?_, rfl, ?_⟩
    · change s₂.queue c.topic = _
      rw [hq₂, Function.update_self, hq₁]
      rfl
    · exact (sleepers_became (b := b) hc hflag _ _ _ rfl).trans h.stocked.sleepers
  have hdone : (m.notify c.topic .nack).consumer? w = some c.done :=
    (notify_unwaiting hdown c.topic .nack).trans (consumer?_became_self ..)
  have hclose := Session.close_idle (b := (m.notify c.topic .nack).note .returnedInFlight) hdone hh
  have hrun := Session.run_declines (s := session) (b := b) hp hdeaf hc hw hfree hh
    h.stocked.unarmed hf hs₂
  rw [hclose] at hrun
  have hservice := Service.run_session
    (s := { s.service with broker := { s.broker with ready := [] } }) hs hrun
  refine ⟨m, [.called .requeue c.topic none, .writeFailed, .claimed w c.topic payload,
    .called .fetchNext c.topic none, .woken w c.topic], ?_, rfl, hstocked,
    fun other hne => consumer?_became hne .., hdown, w, _, dequeue_only h.stocked.ready,
    hservice.symm⟩
  simp [History.Quiet, Note.isDelivery]

/-- Then the next one has been woken for it, if there is one. -/
theorem declined (h : Offered s topic payload rest w ws) (hd : s.isDeaf w = true) :
    ∃ service new, Service.Task s.service service ∧
      service.broker.notes = new ++ s.broker.notes ∧ History.Quiet new ∧ .ended w ∈ new ∧
      service.sessions = s.service.sessions.remove w ∧ service.broker.consumer? w = none ∧
      (ws = [] → service.broker.Stocked topic payload rest [] []) ∧
      ∀ next later, ws = next :: later →
        Offered { s with service } topic payload rest next later ∧ new.PassedOn topic w next := by
  obtain ⟨m, before, hquiet, hnotes, hstocked, hothers, hdown, htask⟩ := h.declines hd
  have hgone : ((m.notify topic .nack).departed w topic).consumer? w = none :=
    Table.look_remove_self ..
  have hnew : ∀ n : Note, n.isDelivery = false →
      History.Quiet (.ended w :: .deregistered w topic :: .finished w :: .returnedInFlight :: n ::
        .requeued w topic :: before) := by
    intro n hn
    exact .cons rfl (.cons rfl (.cons rfl (.cons rfl (.cons hn (.cons rfl hquiet)))))
  cases ws with
  | nil =>
    obtain ⟨n, hn, he⟩ := notify_unslept hstocked.sleepers .nack
    rw [he] at htask hgone
    refine ⟨_, _, htask, ?_, hnew n hn, by simp, rfl, hgone, ?_, by simp⟩
    · simp [departed_notes, hnotes]
    · exact fun _ => (hstocked.note n).departed hdown topic
  | cons next later =>
    have hsorted : (next :: later).Pairwise (· < ·) :=
      h.stocked.sleepers ▸ h.reachable.ordered.sleepers_sorted topic
    have hmem : next ∈ s.broker.sleepers topic := by simp [h.stocked.sleepers]
    obtain ⟨d, hnext, ht, hparked⟩ := h.reachable.watched.1.mem_sleepers.mp hmem
    have hne : next ≠ w := by
      rintro rfl
      obtain ⟨c, hc, -, hw, -⟩ := h.woken
      rw [hc] at hnext
      cases hnext
      rw [hw] at hparked
      cases hparked
    -- Whoever sleeps here has not been cancelled, or its task would be in the queue.
    have hfree : d.cancelled = false := by
      by_contra hcancel
      have hready := h.reachable.heedful next d hnext hparked (by simpa using hcancel)
      rw [h.stocked.ready, List.mem_singleton] at hready
      exact hne hready
    obtain ⟨hleft, hwoken, htold⟩ :=
      hstocked.notify hsorted ((hothers next hne).trans hnext) hparked .nack
    have hup : (m.notify topic .nack).isWaiting w = false := by
      simpa only [isWaiting, notify_unwaiting hdown topic .nack] using hdown
    refine ⟨_, _, htask, ?_, hnew (.woke next topic .nack) rfl, by simp, rfl, hgone, by simp, ?_⟩
    · rw [departed_notes, htold, hnotes]
      rfl
    · rintro _ _ ⟨⟩
      refine ⟨⟨h.reachable.ran htask, hleft.departed hup topic, ?_⟩, ?_⟩
      · exact ⟨_, (consumer?_forget hne topic).trans hwoken, ht, rfl, hfree⟩
      · exact ⟨[], [.deregistered w topic, .finished w, .returnedInFlight], before, rfl⟩

end Offered

end Scene

end TopicQueue

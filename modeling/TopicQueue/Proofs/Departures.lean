import TopicQueue.Proofs.Acknowledged
import TopicQueue.Proofs.Registered
import TopicQueue.Proofs.Requeues

namespace TopicQueue

namespace Session
open Broker

/-- Why a session leaves its loop. -/
inductive Exit where
  /-- It has been cancelled between two commands. -/
  | cancelled
  /-- The input is over. -/
  | ended
  /-- The input has failed. -/
  | failed (error : ReadError)
  /-- A frame that asks for more has not arrived. -/
  | unwritten (frame : Frame)
  /-- The verdict of a command has failed. -/
  | unsettled (command : Command) (error : BrokerError)
  /-- The call for a message has failed, or has been cancelled. -/
  | unserved (command : Command) (error : BrokerError)

namespace Exit

/-- The client is gone. -/
def isDisconnect : Exit → Bool
  | .cancelled | .ended | .unwritten _ | .failed (.lost _) | .failed .closed => true
  | .failed (.json _) | .failed .truncated | .failed (.tooLong _) => false
  | .unsettled .. | .unserved .. => false

/-- How often the message at hand is nacked, if that does not succeed before. -/
def attempts (e : Exit) : Nat := if e.isDisconnect then 2 else 1

end Exit

/-- The loop is left. -/
inductive Quits (id : ConsumerId) (deaf : Bool) : Exit → Point → Point → Prop where
  | cancelled {inlet b} (h : isCancelled b id = true) :
      Quits id deaf .cancelled ⟨.reading, inlet, b⟩ ⟨.parting, inlet, b⟩
  | ended {inlet inlet' b} (hc : isCancelled b id = false) (h : inlet.next = (.ended, inlet')) :
      Quits id deaf .ended ⟨.reading, inlet, b⟩ ⟨.parting, inlet', b.note (.took id .ended)⟩
  | failed {inlet inlet' b e} (hc : isCancelled b id = false)
      (h : inlet.next = (.failed e, inlet')) :
      Quits id deaf (.failed e) ⟨.reading, inlet, b⟩
        ⟨.ofFailure e, inlet', b.note (.took id (.failed e))⟩
  | unwritten {inlet b frame} (hdeaf : deaf = true) (hf : frame.goesOn = true) :
      Quits id deaf (.unwritten frame) ⟨.answering frame, inlet, b⟩ ⟨.parting, inlet, b⟩
  | unsettled {inlet b b' c v error e} (hv : verdict? c = some (v, error))
      (h : b.settle id v = (.error e, b')) :
      Quits id deaf (.unsettled c e) ⟨.obeying c, inlet, b⟩
        ⟨.closing (some (.ofError error)), inlet, b'⟩
  | unserved {stage inlet b b' c e} (h : stage = .asking c ∧ b.begin id = (some (.error e), b') ∨
        stage = .waiting c ∧ b.resume id = (some (.error e), b')) :
      Quits id deaf (.unserved c e) ⟨stage, inlet, b⟩ ⟨.ofResult (.error e), inlet, b'⟩

namespace Stage

/-- The session is in its loop. -/
def inLoop : Stage → Bool
  | .parting | .closing _ | .gone => false
  | _ => true

/-- How often the message at hand is still to be nacked. -/
def attempts : Stage → Nat
  | .parting => 2
  | .closing _ => 1
  | _ => 0

end Stage

/-- How its consumer stands while a session is at a stage of its run. -/
def StandsAt (id : ConsumerId) (b : Broker) : Stage → Prop
  | .gone => b.consumer? id = none
  | .waiting _ => ∃ c, b.consumer? id = some c ∧ (c.wait = .parked ∨ c.wait = .woken)
  | .asking command => b.Resting id ∧ (command ≠ .init → ∀ topic, ¬ b.Holds id topic)
  | .answering frame => b.Resting id ∧ frame.goesOn = true
  | .reading | .obeying _ | .parting | .closing _ => b.Resting id

/-- What is known at any point of a run. -/
structure Sane (id : ConsumerId) (p : Point) : Prop where
  standsAt : StandsAt id p.broker p.stage
  attended : p.broker.Attended (some id)
  ordered : p.broker.Ordered
  accounted : p.broker.ledger.Accounted

variable {s : Session} {id : ConsumerId} {deaf : Bool} {p p' q : Point} {stage : Stage}
  {b b' : Broker} {c : Consumer} {exit : Exit} {n : Nat}

theorem StandsAt.resting (h : StandsAt id b stage) (hout : stage.inLoop = false)
    (hstage : stage ≠ .gone) : b.Resting id := by
  cases stage with
  | parting | closing => exact h
  | gone => exact absurd rfl hstage
  | reading | obeying | asking | waiting | answering => cases hout

theorem standsAt_ofResult (hr : b.Resting id) (result : Except BrokerError Bytes) :
    StandsAt id b (.ofResult result) := by
  cases result with
  | ok payload => exact ⟨hr, rfl⟩
  | error e => cases e <;> exact hr

/-- Whoever has settled its message holds none. -/
theorem settled_empty {v : Verdict} (hr : b.Resting id) (h : b.settle id v = (.ok (), b'))
    (topic : String) : ¬ b'.Holds id topic := by
  obtain ⟨c, hc, -, hw⟩ := hr
  rintro ⟨d, hd, -, hh⟩
  rcases settle_cases hc (settle_ok hc h).1 v with ⟨e, f, he⟩ | ⟨s, f, -, he⟩
  · rw [he] at h
    cases h
  · rw [he] at h
    cases h
    rw [notify_unwaiting, consumer?_became_self] at hd
    · cases hd
      cases hh
    · exact (isWaiting_eq (consumer?_became_self ..)).trans hw

-- What a session asks of its consumer, as calls of it.

theorem settle_leads {v : Verdict} {r : Except BrokerError Unit} (h : b.settle id v = (r, b'))
    (hb : b.Resting id) : Leads id ⟨b, some id⟩ ⟨b', some id⟩ ∧ b'.Resting id := by
  have hcall : Call id ⟨b, some id⟩ ⟨(b.settle id v).2, some id⟩ := .settle v
  have hresting := hb.settle v
  rw [h] at hcall hresting
  exact ⟨.single hcall, hresting⟩

theorem begin_leads {r : Option (Except BrokerError Bytes)} (h : b.begin id = (r, b'))
    (hb : b.Resting id) : Leads id ⟨b, some id⟩ ⟨b', some id⟩ ∧ Rests id (r, b') := by
  have hcall : Call id ⟨b, some id⟩ ⟨(b.begin id).2, some id⟩ :=
    .begin fun c hc => .inl (hb.idle c hc)
  have hrests := hb.begin
  rw [h] at hcall hrests
  exact ⟨.single hcall, hrests⟩

theorem resume_leads {r : Option (Except BrokerError Bytes)} (h : b.resume id = (r, b'))
    (hc : b.consumer? id = some c) (hw : c.wait = .parked ∨ c.wait = .woken) :
    Leads id ⟨b, some id⟩ ⟨b', some id⟩ ∧ Rests id (r, b') := by
  have hcall : Call id ⟨b, some id⟩ ⟨(b.resume id).2, some id⟩ := by
    refine .resume fun d hd => ?_
    cases hc.symm.trans hd
    exact hw
  have hrests := rests_resume hc hw
  rw [h] at hcall hrests
  exact ⟨.single hcall, hrests⟩

/-- Each act is a call of the session's own consumer, or none, and leaves it as it should be. -/
theorem Act.leads (h : Act id deaf p p') (hp : StandsAt id p.broker p.stage) :
    Leads id ⟨p.broker, some id⟩ ⟨p'.broker, some id⟩ ∧ StandsAt id p'.broker p'.stage := by
  have hnote : ∀ {b : Broker} {k : Note}, k.isRecord = false →
      Leads id ⟨b, some id⟩ ⟨b.note k, some id⟩ := fun hk => .single (.note _ hk)
  cases h with
  | @aside stage _ b k hk => exact ⟨hnote (Note.isRecord_aside hk), by cases stage <;> exact hp⟩
  | cancelled | pending => exact ⟨.refl, hp⟩
  | ended | read => exact ⟨hnote rfl, hp⟩
  | failed =>
    refine ⟨hnote rfl, ?_⟩
    dsimp only
    unfold Stage.ofFailure
    split <;> exact hp
  | unknown => exact ⟨.refl, hp, beq_self_eq_true _⟩
  | init => exact ⟨.refl, hp, fun hne => absurd rfl hne⟩
  | settled _ hs =>
    obtain ⟨hleads, hresting⟩ := settle_leads hs hp
    exact ⟨hleads, hresting, fun _ => settled_empty hp hs⟩
  | unsettled _ hs => exact settle_leads hs hp
  | begun hs =>
    obtain ⟨hleads, hrests⟩ := begin_leads hs hp.1
    exact ⟨hleads, standsAt_ofResult hrests _⟩
  | asleep hs =>
    obtain ⟨hleads, c, hc, hw⟩ := begin_leads hs hp.1
    exact ⟨hleads, c, hc, .inl hw⟩
  | resumed hs =>
    obtain ⟨c, hc, hw⟩ := hp
    obtain ⟨hleads, hrests⟩ := resume_leads hs hc hw
    exact ⟨hleads, standsAt_ofResult hrests _⟩
  | still hs =>
    obtain ⟨c, hc, hw⟩ := hp
    obtain ⟨hleads, d, hd, hw'⟩ := resume_leads hs hc hw
    exact ⟨hleads, d, hd, .inl hw'⟩
  | arrived => exact ⟨hnote rfl, hp.1⟩
  | lost => exact ⟨.refl, hp.1⟩
  | putBack => exact ⟨.single (.settle .nack), Resting.settle hp .nack⟩
  | said => exact ⟨hnote rfl, hp⟩
  | unsaid => exact ⟨.refl, hp⟩
  | @closed _ b =>
    have hcall : Call id ⟨b, some id⟩ ⟨b.release id, some id⟩ := .release (Resting.idle hp)
    exact ⟨.head hcall (hnote rfl), consumer?_release b id⟩

theorem Act.sane (h : Act id deaf p p') (hp : Sane id p) : Sane id p' := by
  obtain ⟨hleads, hstandsAt⟩ := h.leads hp.standsAt
  exact ⟨hstandsAt, hleads.reaches.attended hp.attended, hleads.reaches.ordered hp.attended hp.ordered,
    hp.accounted.steps h.steps⟩

theorem Acts.sane (h : Acts id deaf p p') (hp : Sane id p) : Sane id p' := by
  induction h with
  | refl => exact hp
  | tail _ hact ih => exact hact.sane ih

/-- An act that leaves the loop is one of the ways to do so. -/
theorem Act.quits (h : Act id deaf p p') (hp : StandsAt id p.broker p.stage)
    (hin : p.stage.inLoop = true) (hout : p'.stage.inLoop = false) :
    ∃ exit, Quits id deaf exit p p' := by
  cases h with
  | aside =>
    rw [hin] at hout
    cases hout
  | cancelled h => exact ⟨_, .cancelled h⟩
  | ended hc h => exact ⟨_, .ended hc h⟩
  | failed hc h => exact ⟨_, .failed hc h⟩
  | lost h => exact ⟨_, .unwritten h hp.2⟩
  | unsettled hv h => exact ⟨_, .unsettled hv h⟩
  | @begun _ _ _ _ result h =>
    cases result with
    | ok => cases hout
    | error e => exact ⟨_, .unserved (.inl ⟨rfl, h⟩)⟩
  | @resumed _ _ _ _ result h =>
    cases result with
    | ok => cases hout
    | error e => exact ⟨_, .unserved (.inr ⟨rfl, h⟩)⟩
  | pending | read | unknown | init | settled | asleep | still | arrived => cases hout
  | putBack | said | unsaid | closed => cases hin

theorem Quits.act (h : Quits id deaf exit p q) : Act id deaf p q := by
  cases h with
  | cancelled h => exact .cancelled h
  | ended hc h => exact .ended hc h
  | failed hc h => exact .failed hc h
  | unwritten h => exact .lost h
  | unsettled hv h => exact .unsettled hv h
  | unserved h =>
    rcases h with ⟨rfl, h⟩ | ⟨rfl, h⟩
    · exact .begun h
    · exact .resumed h

/-- A run that comes out of the loop leaves it at some point. -/
theorem Acts.quits (h : Acts id deaf p p') (hp : Sane id p) (hin : p.stage.inLoop = true)
    (hout : p'.stage.inLoop = false) :
    ∃ exit p₁ q, Acts id deaf p p₁ ∧ Quits id deaf exit p₁ q ∧ Acts id deaf q p' := by
  induction h with
  | refl =>
    rw [hin] at hout
    cases hout
  | @tail p₁ p₂ hacts hact ih =>
    cases hbefore : p₁.stage.inLoop with
    | true =>
      obtain ⟨exit, hquits⟩ := hact.quits (Acts.sane hacts hp).standsAt hbefore hout
      exact ⟨exit, p₁, p₂, hacts, hquits, .refl⟩
    | false =>
      obtain ⟨exit, p₃, q, hbegin, hquits, hend⟩ := ih hbefore
      exact ⟨exit, p₃, q, hbegin, hquits, hend.tail hact⟩

/-- What is still to be done is told by the way out. -/
theorem Quits.attempts (h : Quits id deaf exit p q) :
    q.stage.inLoop = false ∧ q.stage ≠ .gone ∧ q.stage.attempts = exit.attempts := by
  cases h with
  | cancelled | ended | unwritten | unsettled => exact ⟨rfl, nofun, rfl⟩
  | @failed _ _ _ e => cases e <;> exact ⟨rfl, nofun, rfl⟩
  | @unserved _ _ _ _ _ e => cases e <;> exact ⟨rfl, nofun, rfl⟩

/-- Where a call for a message fails, and there is a message at hand all the same, the call was one
too many. -/
theorem Quits.unserved_holding {command : Command} {e : BrokerError} {topic : String}
    (h : Quits id deaf (.unserved command e) p q) (hp : Sane id p)
    (hh : q.broker.Holds id topic) : command = .init ∧ e = .alreadyHolding := by
  cases h with
  | unserved h =>
    rcases h with ⟨rfl, hb⟩ | ⟨rfl, hr⟩
    · obtain ⟨⟨c, hc, -⟩, hinit⟩ := hp.standsAt
      rcases begin_cases hc with ⟨hheld, he⟩ | ⟨hfree, hs⟩
      · rw [hb] at he
        refine ⟨?_, by cases he; rfl⟩
        by_contra hne
        exact hinit hne c.topic ⟨c, hc, rfl, hheld⟩
      · rw [hb] at hs
        exact absurd hh (hs.failed_empty hfree topic)
    · obtain ⟨c, hc, hw⟩ := hp.standsAt
      exact absurd hh (resume_failed_empty hc (hp.ordered.empty id c hc hw) hr topic)

/-- A session on its way out. `c` is its consumer and `b` the broker as they were when the loop was
left, and so many attempts were to be made then. -/
structure Leaving (id : ConsumerId) (c : Consumer) (b : Broker) (attempts : Nat) (p : Point) :
    Prop where
  out : p.stage.inLoop = false
  fate : ∃ n held, n + p.stage.attempts = attempts ∧ Fate id c b n held p.broker ∧
    (p.stage ≠ .gone → p.broker.consumer? id = some { c with holding := held })

theorem Act.leaving {attempts : Nat} (h : Act id deaf p p') (hp : Sane id p)
    (hw : c.waiting = false) (hl : Leaving id c b attempts p) : Leaving id c b attempts p' := by
  obtain ⟨hout, n, held, hn, hfate, hc⟩ := hl
  cases h with
  | aside k hk => exact ⟨hout, n, held, hn, hfate.note (Note.errand?_aside hk), hc⟩
  | putBack =>
    obtain ⟨held', hfate', hc'⟩ := hfate.nack hp.attended (hc nofun) hw
    refine ⟨rfl, n + 1, held', ?_, hfate', fun _ => hc'⟩
    simpa [Stage.attempts, Nat.add_assoc] using hn
  | said => exact ⟨rfl, n, held, hn, hfate.note rfl, fun _ => hc nofun⟩
  | unsaid => exact ⟨rfl, n, held, hn, hfate, fun _ => hc nofun⟩
  | closed =>
    obtain ⟨held', hfate'⟩ := hfate.release hp.attended (hc nofun) hw
    exact ⟨rfl, n + 1, held', hn, hfate'.note rfl, fun hne => absurd rfl hne⟩
  | cancelled | pending | ended | failed | read | unknown | init | settled | unsettled | begun |
    asleep | resumed | still | arrived | lost => cases hout

theorem Acts.leaving {attempts : Nat} (h : Acts id deaf q p) (hq : Sane id q)
    (hw : c.waiting = false) (hl : Leaving id c b attempts q) : Leaving id c b attempts p := by
  induction h with
  | refl => exact hl
  | tail hacts hact ih => exact hact.leaving (Acts.sane hacts hq) hw ih

/-- What has been done about the message of `c` from the moment when the loop is left. -/
structure Parted (id : ConsumerId) (exit : Exit) (c : Consumer) (b b' : Broker) : Prop where
  /-- Without a message there is nothing to put back. -/
  idle : c.holding = false → Untouched id [] b b'
  /-- A message is the first entry of its topic, claimed, and the one that the consumer got last. -/
  entry : c.holding = true → ∃ entry rest, b.store.claim? c.topic = some entry.1 ∧
    b.store.tree c.topic = entry :: rest ∧ b.Got id c.topic entry
  /-- It goes back with the first attempt that succeeds, or none of the attempts has. -/
  fate : c.holding = true → ∃ failures : List StoreError,
    failures.length < exit.attempts ∧ Returned id c.topic failures b b' ∨
    failures.length = exit.attempts ∧ Untouched id (failures.map (.refused c.topic)) b b'
  /-- Calls for a message fail with one at hand only if it is the one too many. -/
  unserved : c.holding = true → ∀ command e, exit = .unserved command e →
    command = .init ∧ e = .alreadyHolding

theorem Quits.parted (h : Quits id deaf exit p q) (hp : Sane id p) (hend : Acts id deaf q p')
    (hgone : p'.stage = .gone) :
    ∃ c, q.broker.consumer? id = some c ∧ Parted id exit c q.broker p'.broker := by
  have hq : Sane id q := h.act.sane hp
  obtain ⟨hout, hstage, hattempts⟩ := h.attempts
  obtain ⟨c, hc, -, hw⟩ := hq.standsAt.resting hout hstage
  have hstart : Leaving id c q.broker exit.attempts q :=
    ⟨hout, 0, c.holding, by rw [Nat.zero_add, hattempts], .start id c q.broker, fun _ => hc⟩
  obtain ⟨-, n, held, hn, hfate, -⟩ := hend.leaving hq hw hstart
  rw [hgone] at hn
  refine ⟨c, hc, ?_⟩
  constructor
  case idle =>
    intro hh
    cases hfate with
    | idle _ h => exact h
    | returned _ hheld | kept _ hheld =>
      rw [hh] at hheld
      cases hheld
  case entry => exact fun hh => owned_entry hq.accounted hc hh
  case fate =>
    intro hh
    cases hfate with
    | idle hfree =>
      rw [hh] at hfree
      cases hfree
    | returned failures _ hlt h => exact ⟨failures, .inl ⟨Nat.lt_of_lt_of_eq hlt hn, h⟩⟩
    | kept failures _ h => exact ⟨failures, .inr ⟨hn, h⟩⟩
  case unserved =>
    rintro hh command e rfl
    exact h.unserved_holding hp ⟨c, hc, rfl, hh⟩

theorem Parted.spanned (h : Parted id exit c b b') (span : Option RequestSpan) :
    Parted id exit c b { b' with span } where
  idle hh := (h.idle hh).spanned span
  entry := h.entry
  fate hh := by
    obtain ⟨failures, ⟨hlt, hr⟩ | ⟨hlength, hu⟩⟩ := h.fate hh
    · exact ⟨failures, .inl ⟨hlt, hr.spanned span⟩⟩
    · exact ⟨failures, .inr ⟨hlength, hu.spanned span⟩⟩
  unserved := h.unserved

/-- Where a run of a session begins. -/
def opening (s : Session) (b : Broker) : Point := ⟨s.stage, s.inlet, { b with span := s.span }⟩

theorem Act.careful (h : Act id deaf p p') (hp : p.broker.ledger.Accounted) :
    Careful id p.broker p'.broker := by
  cases h with
  | aside k hk => exact careful_note id _ (Note.errand?_aside hk)
  | ended | failed | read | arrived | said => exact careful_note id _ rfl
  | cancelled | pending | unknown | init | lost | unsaid => exact careful_refl id _
  | @settled _ b _ _ v _ _ hs | @unsettled _ b _ _ v _ _ _ hs =>
    have hsettle := careful_settle hp id v
    rwa [hs] at hsettle
  | @begun _ b _ _ _ hs | @asleep _ b _ _ hs =>
    have hbegin := careful_begin hp id
    rwa [hs] at hbegin
  | @resumed _ b _ _ _ hs | @still _ b _ _ hs =>
    have hresume := careful_resume hp id
    rwa [hs] at hresume
  | putBack => exact careful_settle hp id .nack
  | closed =>
    have hrelease := careful_release hp id
    refine ⟨?_, hrelease.others⟩
    rw [errands_note rfl]
    exact hrelease.requeues

end Session

namespace Scene
open Broker Session

variable {s : Scene} {id : ConsumerId} {taken : Service} {session : Session}

/-- What a session has done when the run is over in which it has left its loop; `b` and `b'` are the
broker before and after that run. -/
structure Departed (id : ConsumerId) (session : Session) (b b' : Broker) : Prop where
  /-- Its consumer is gone, and in no roster any more. -/
  gone : b'.consumer? id = none
  registry : b'.registry = b.registry.leave id
  unlisted : ∀ topic roster, b'.roster? topic = some roster → id ∉ roster.members
  /-- The loop has been left in one of the ways that there are, and then whatever the consumer held
  has been put back, or as many attempts as are due have failed. -/
  parted : ∃ exit p q inlet c, Acts id session.deaf (session.opening b) p ∧
    Quits id session.deaf exit p q ∧
    Acts id session.deaf q ⟨.gone, inlet, (session.run (session.opening b).broker id).2⟩ ∧
    q.broker.consumer? id = some c ∧ Parted id exit c q.broker b'

/-- How the sessions of a scene clean up. -/
structure CleansUp (s : Scene) : Prop where
  departed : ∀ id taken session, s.service.dequeue = some (id, taken) →
    taken.sessions.look id = some session → (taken.run id).sessions.look id = none →
    Departed id session taken.broker (taken.run id).broker
  /-- At no time does a session put back what it does not hold, or touch what another holds. -/
  careful : ∀ id taken session p p', s.service.dequeue = some (id, taken) →
    taken.sessions.look id = some session → Acts id session.deaf (session.opening taken.broker) p →
    Act id session.deaf p p' → Careful id p.broker p'.broker

theorem Reachable.opening_sane (hs : s.Reachable) (hd : s.service.dequeue = some (id, taken))
    (hid : taken.sessions.look id = some session) : Sane id (session.opening taken.broker) := by
  obtain ⟨rest, hready, hbroker, hsessions⟩ := Service.dequeue_some hd
  have htaken : Reaches ⟨s.broker, none⟩ ⟨taken.broker, some id⟩ := by
    rw [hbroker]
    exact .single ⟨id, .take hready⟩
  have hopened : Reaches ⟨s.broker, none⟩ ⟨{ taken.broker with span := session.span }, some id⟩ :=
    htaken.tail ⟨id, .span session.span⟩
  obtain ⟨hattended, -⟩ := hs.watched
  have hstands := (hs.orderly.service.dequeued hd).stands id session hid
  refine ⟨?_, hopened.attended hattended, hopened.ordered hattended hs.ordered, hs.accounted hopened⟩
  change StandsAt id { taken.broker with span := session.span } session.stage
  unfold Session.stage
  rw [Stands] at hstands
  cases hp : session.position with
  | reading | awaiting =>
    rw [hp] at hstands
    exact hstands

theorem Reachable.departed (hs : s.Reachable) (hd : s.service.dequeue = some (id, taken))
    (hid : taken.sessions.look id = some session)
    (hended : (taken.run id).sessions.look id = none) :
    Departed id session taken.broker (taken.run id).broker := by
  have hgone := (hs.orderly.service.dequeued hd).run_gone hid hended
  have hran := session.run_ran (session.opening taken.broker).broker id
  constructor
  case gone => exact hgone
  case registry => rw [Service.registry_run, if_pos (by simp [Service.ends, hid, hended])]
  case unlisted =>
    intro topic roster hr hm
    have hattended := (hs.task hd).watched.1
    obtain ⟨c, hc, -⟩ := hattended.enrolled topic roster hr id hm
    rw [show (taken.run id).broker.consumer? id = some c from hc] at hgone
    cases hgone
  case parted =>
    have hsane := hs.opening_sane hd hid
    have hin : (session.opening taken.broker).stage.inLoop = true := by
      simp only [opening, stage]
      split <;> rfl
    cases hr : session.run (session.opening taken.broker).broker id with
    | mk left b =>
      rw [hr] at hran
      rw [Service.run_session hid hr] at hended ⊢
      cases hran with
      | paused inlet position h => simp at hended
      | gone inlet h =>
        obtain ⟨exit, p, q, hbegin, hquits, hend⟩ := Acts.quits h hsane hin rfl
        obtain ⟨c, hc, hparted⟩ := hquits.parted (Acts.sane hbegin hsane) hend rfl
        exact ⟨exit, p, q, inlet, c, hbegin, hquits, hend, hc, hparted.spanned none⟩

/-- Whatever makes a session leave its loop, and whatever fails: in the same run its consumer goes,
and its message goes back unless each attempt to put it back has failed. -/
theorem sessions_clean_up (hs : s.Reachable) : s.CleansUp where
  departed _ _ _ hd hid hended := hs.departed hd hid hended
  careful _ _ _ _ _ hd hid hacts hact := by
    have hsane := Acts.sane hacts (hs.opening_sane hd hid)
    exact hact.careful hsane.accounted

/-- A client holds a message, another consumer sleeps, and the store is about to refuse one requeue
when the client hangs up or its input fails. -/
def refusedRequeue (last : Action) : List Step :=
  [⟨.session "t" "s" false, false⟩, ⟨.subscribe "t" "c", false⟩, ⟨.publish "t" [1], false⟩,
   ⟨.command "s" .init, false⟩, ⟨.next "c" false, false⟩,
   ⟨.fault .requeue ⟨.closed, 0, 1⟩, false⟩, ⟨last, true⟩]

/-- The service that is about to run the session. -/
def refusing (last : Action) : Service :=
  { (after (refusedRequeue last)).service with
    broker := { (after (refusedRequeue last)).broker with ready := [] } }

/-- There is a second attempt where the client is gone, and none where it sent no command. -/
theorem secondAttempt_cleansUp :
    (∀ last ∈ [.hangUp "s", .fail "s" (.lost "gone"), .fail "s" .closed], ∃ session,
      (after (refusedRequeue last)).service.dequeue = some (0, refusing last) ∧
      (refusing last).sessions.look 0 = some session ∧
      Departed 0 session (refusing last).broker ((refusing last).run 0).broker ∧
      ((refusing last).run 0).broker.errands.take 2 =
        [⟨.requeue, "t", none⟩, .refused "t" .closed] ∧
      ((refusing last).run 0).broker.store.claim? "t" = none ∧
      ((refusing last).run 0).broker.consumer? 1 = some { topic := "t", wait := .woken }) ∧
    ∀ last ∈ [.fail "s" (.json .mistyped), .fail "s" .truncated, .fail "s" (.tooLong 1024)],
      ∃ session,
      (after (refusedRequeue last)).service.dequeue = some (0, refusing last) ∧
      (refusing last).sessions.look 0 = some session ∧
      Departed 0 session (refusing last).broker ((refusing last).run 0).broker ∧
      ((refusing last).run 0).broker.errands.take 1 = [.refused "t" .closed] ∧
      ((refusing last).run 0).broker.store.claim? "t" = some 0 ∧
      ((refusing last).run 0).broker.consumer? 1 =
        some { topic := "t", waiting := true, wait := .parked } := by
  have clean : ∀ last ∈ [Action.hangUp "s", .fail "s" (.lost "gone"), .fail "s" .closed] ++
        [.fail "s" (.json .mistyped), .fail "s" .truncated, .fail "s" (.tooLong 1024)], ∃ session,
      (after (refusedRequeue last)).service.dequeue = some (0, refusing last) ∧
      (refusing last).sessions.look 0 = some session ∧
      Departed 0 session (refusing last).broker ((refusing last).run 0).broker := by
    intro last hlast
    obtain ⟨hown, hready, hsome, hnone⟩ : (∀ t ∈ refusedRequeue last, t.action.isOwn = true) ∧
        (after (refusedRequeue last)).broker.ready = [0] ∧
        ((refusing last).sessions.look 0).isSome = true ∧
        (((refusing last).run 0).sessions.look 0).isNone = true := by
      simp only [List.mem_append, List.mem_cons, List.not_mem_nil, or_false] at hlast
      rcases hlast with (rfl | rfl | rfl) | rfl | rfl | rfl <;> decide +kernel
    have hs := sessions_clean_up (reachable_after hown)
    have hd := dequeue_only hready
    obtain ⟨session, hid⟩ := Option.isSome_iff_exists.mp hsome
    exact ⟨session, hd, hid, hs.departed 0 _ session hd hid (Option.isNone_iff_eq_none.mp hnone)⟩
  constructor <;> intro last hlast
  · obtain ⟨session, hd, hid, hdeparted⟩ := clean last (List.mem_append_left _ hlast)
    refine ⟨session, hd, hid, hdeparted, ?_⟩
    simp only [List.mem_cons, List.not_mem_nil, or_false] at hlast
    rcases hlast with rfl | rfl | rfl <;> decide +kernel
  · obtain ⟨session, hd, hid, hdeparted⟩ := clean last (List.mem_append_right _ hlast)
    refine ⟨session, hd, hid, hdeparted, ?_⟩
    simp only [List.mem_cons, List.not_mem_nil, or_false] at hlast
    rcases hlast with rfl | rfl | rfl <;> decide +kernel

end Scene

end TopicQueue

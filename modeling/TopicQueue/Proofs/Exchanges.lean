import TopicQueue.Proofs.Bystanders

namespace TopicQueue

/-- A frame after which a session reads on. -/
def Frame.goesOn : Frame → Bool
  | .message _ => true
  | .error text => text == ClientError.unrecognisedCommand.message

/-- An item that says that the client is gone. -/
def Intake.isDisconnect : Intake → Bool
  | .ended | .failed (.lost _) | .failed .closed => true
  | .command _ | .failed (.json _) | .failed .truncated | .failed (.tooLong _) => false

/-- The client is there, but what it sent is no command. -/
inductive Undecodable : ReadError → Prop where
  | json (flaw : Json.Flaw) : Undecodable (.json flaw)
  | truncated : Undecodable .truncated
  | tooLong (limit : Nat) : Undecodable (.tooLong limit)

/-- Why a session has ended. -/
inductive Ending where
  /-- It has written its last frame. -/
  | answered
  /-- The client was gone. -/
  | disconnected
  /-- Its frame did not arrive. -/
  | unwritten
  /-- It was cancelled before it read on. -/
  | cancelled
  /-- It was cancelled while it waited for a message. -/
  | interrupted
  deriving DecidableEq, Repr

namespace History

/-- A command's verdict has taken effect, if it has one. -/
inductive Settled (id : ConsumerId) : Command → History → Prop where
  | init : Settled id .init []
  | verdict {command v error} (hv : Session.verdict? command = some (v, error)) (topic : String) :
      Settled id command [v.record id topic]

/-- What a session has done about an item, the latest first, when it comes to this frame. -/
inductive Handled (id : ConsumerId) : Intake → History → Frame → Prop where
  | unknown (text : String) :
      Handled id (.command (.unknown text)) [] (.ofError .unrecognisedCommand)
  | undecodable {e} (h : Undecodable e) :
      Handled id (.failed e) [] (.ofError .decodingCommand)
  /-- The verdict has failed. -/
  | unsettled {command v error} (hv : Session.verdict? command = some (v, error)) :
      Handled id (.command command) [] (.ofError error)
  /-- The call for a message has failed. -/
  | unfetched {command done} (h : Settled id command done) :
      Handled id (.command command) done (.ofError .nextValue)
  | fetched {command done} (h : Settled id command done) (topic : String) (payload : Bytes) :
      Handled id (.command command) (.claimed id topic payload :: done) (.message payload)

/-- Exchanges, one after another, that a session goes on from. -/
inductive Dialogue (id : ConsumerId) : History → Prop where
  | nil : Dialogue id []
  | exchange {item done frame told} (h : Dialogue id told) (hd : Handled id item done frame)
      (hg : frame.goesOn = true) :
      Dialogue id (.wrote id frame :: (done ++ .took id item :: told))

/-- What a session that has ended has done. -/
inductive Over (id : ConsumerId) : Ending → History → Prop where
  | answered {item done frame told} (h : Dialogue id told) (hd : Handled id item done frame)
      (hl : frame.goesOn = false) :
      Over id .answered (.wrote id frame :: (done ++ .took id item :: told))
  | disconnected {item told} (h : Dialogue id told) (hi : item.isDisconnect = true) :
      Over id .disconnected (.took id item :: told)
  | unwritten {item done frame told} (h : Dialogue id told) (hd : Handled id item done frame) :
      Over id .unwritten (done ++ .took id item :: told)
  | cancelled {told} (h : Dialogue id told) : Over id .cancelled told
  | interrupted {command done told} (h : Dialogue id told) (hs : Settled id command done) :
      Over id .interrupted (done ++ .took id (.command command) :: told)
  /-- What it held has gone back. -/
  | putBack {ending told} (topic : String) (h : Over id ending told) :
      Over id ending (.requeued id topic :: told)

end History

open History

namespace Session
open Broker

/-- A session that is about to end, or has ended. -/
def Stage.isLast : Stage → Bool
  | .parting | .closing none | .gone => true
  | _ => false

/-- What a session at this stage has done. Where it is about to end, that is for a reason. -/
inductive Recounts (id : ConsumerId) (reason : Ending → Prop) : Stage → History → Prop where
  | reading {told} (h : Dialogue id told) : Recounts id reason .reading told
  | obeying {command told} (h : Dialogue id told) :
      Recounts id reason (.obeying command) (.took id (.command command) :: told)
  | asking {command done told} (h : Dialogue id told) (hs : Settled id command done) :
      Recounts id reason (.asking command) (done ++ .took id (.command command) :: told)
  | waiting {command done told} (h : Dialogue id told) (hs : Settled id command done) :
      Recounts id reason (.waiting command) (done ++ .took id (.command command) :: told)
  | answering {item done frame told} (h : Dialogue id told) (hd : Handled id item done frame)
      (hg : frame.goesOn = true) :
      Recounts id reason (.answering frame) (done ++ .took id item :: told)
  | closing {item done frame told} (h : Dialogue id told) (hd : Handled id item done frame)
      (hl : frame.goesOn = false) :
      Recounts id reason (.closing (some frame)) (done ++ .took id item :: told)
  | finished (ending : Ending) {stage told} (hstage : stage.isLast = true) (hr : reason ending)
      (h : Over id ending told) : Recounts id reason stage told

/-- What is so of a session at the beginning of the run in which it ends. -/
def Ends (s : Session) (b : Broker) (id : ConsumerId) : Ending → Prop
  | .answered | .disconnected => True
  | .unwritten => s.deaf = true
  | .cancelled => s.position = .reading ∧ isCancelled b id = true
  | .interrupted => (∃ command, s.position = .awaiting command) ∧ isCancelled b id = true

variable {id : ConsumerId} {b b' b₀ : Broker} {s : Session} {p p' : Point}
  {reason : Ending → Prop} {told : History}

theorem verdict_goesOn {command : Command} {v : Verdict} {error : ClientError}
    (h : verdict? command = some (v, error)) : (Frame.ofError error).goesOn = false := by
  cases command <;> cases h <;> decide

theorem isCancelled_eq {c : Consumer} (h : b.consumer? id = some c) :
    isCancelled b id = c.cancelled := by
  simp [isCancelled, h]

theorem isCancelled_spared (h : Spared id b b') : isCancelled b' id = isCancelled b id := by
  rcases h with he | ⟨c, hc, -, he⟩
  · simp [isCancelled, he]
  · rw [isCancelled_eq hc, isCancelled_eq he]
    unfold Consumer.roused
    split <;> rfl

/-- A consumer that nothing but a notification has reached since it was set. -/
theorem isCancelled_set {c : Consumer} {cancelled : Bool} (hc : b.consumer? id = some c)
    (h : Spared id b b') (hsame : c.cancelled = cancelled) : isCancelled b' id = cancelled := by
  rw [isCancelled_spared h, isCancelled_eq hc, hsame]

theorem isCancelled_settle (b : Broker) (id : ConsumerId) (v : Verdict) :
    isCancelled (b.settle id v).2 id = isCancelled b id := by
  cases hc : b.consumer? id with
  | none => simp [settle, hc]
  | some c =>
    cases hh : c.holding with
    | false => rw [settle_idle hc hh]
    | true =>
      rcases settle_cases hc hh v with ⟨e, f, he⟩ | ⟨s, f, -, he⟩
      · rw [he]
        rfl
      · rw [he, isCancelled_eq hc]
        exact isCancelled_set (consumer?_became_self ..) (spared_notify _ c.topic v.reason id) rfl

theorem isCancelled_leave {c : Consumer} (hc : b.consumer? id = some c) :
    isCancelled (b.leave id) id = isCancelled b id := by
  rw [isCancelled_eq hc]
  have hset := consumer?_setConsumer_self b id { c with waiting := false, wait := .idle }
  cases hw : c.waiting with
  | true =>
    rw [leave_waiting hc hw]
    exact isCancelled_set hset (.of_eq rfl) rfl
  | false =>
    rw [leave_woken hc hw]
    exact isCancelled_set hset (spared_notify _ c.topic .handoff id) rfl

/-- A call for a message leaves its consumer cancelled or not, as it was, and says that it was
cancelled only if that is so. -/
structure Heeds (id : ConsumerId) (b : Broker)
    (r : Option (Except BrokerError Bytes) × Broker) : Prop where
  same : isCancelled r.2 id = isCancelled b id
  only : isCancelled b id = false → r.1 ≠ some (.error .cancelled)

theorem Heeds.sought {c : Consumer} {r : Option (Except BrokerError Bytes) × Broker}
    (hc : b.consumer? id = some c) (h : Sought b₀ id c c.asleep r) : Heeds id b r := by
  have hleft : isCancelled r.2 id = c.cancelled := by
    cases h <;> exact isCancelled_set (consumer?_became_self ..) (.of_eq rfl) rfl
  refine ⟨hleft.trans (isCancelled_eq hc).symm, fun hcancel => ?_⟩
  rw [isCancelled_eq hc] at hcancel
  cases h with
  | cancelled f j hcancelled =>
    rw [hcancel] at hcancelled
    cases hcancelled
  | failed | claimed | nothing => simp

theorem heeds_begin (b : Broker) (id : ConsumerId) : Heeds id b (b.begin id) := by
  cases hc : b.consumer? id with
  | none =>
    have hnone : b.begin id = (none, b) := by simp [begin, hc]
    rw [hnone]
    exact ⟨rfl, by simp⟩
  | some c =>
    rcases begin_cases hc with ⟨-, he⟩ | ⟨-, hs⟩
    · rw [he]
      refine ⟨?_, by simp⟩
      rw [isCancelled_eq hc, isCancelled_eq (consumer?_setConsumer_self ..)]
    · exact .sought hc hs

theorem heeds_resume (b : Broker) (id : ConsumerId) : Heeds id b (b.resume id) := by
  cases hc : b.consumer? id with
  | none =>
    have hnone : b.resume id = (none, b) := by simp [resume, hc]
    rw [hnone]
    exact ⟨rfl, by simp⟩
  | some c =>
    cases hcancel : c.cancelled with
    | true =>
      rw [resume_cancelled hc hcancel]
      refine ⟨?_, by simp [isCancelled_eq hc, hcancel]⟩
      split
      · rw [isCancelled_leave (consumer?_setConsumer_self ..), isCancelled_eq hc]
        exact isCancelled_set (consumer?_setConsumer_self ..) (.of_eq rfl) rfl
      · exact isCancelled_leave hc
    | false =>
      by_cases hw : c.wait = .woken
      · exact .sought hc (resume_woken hc hcancel hw)
      · rw [resume_asleep hc hcancel hw]
        exact ⟨rfl, by simp⟩

/-- One that is cancelled does not go on waiting. -/
theorem resume_interrupted {r : Option (Except BrokerError Bytes)}
    (h : b.resume id = (r, b')) (hcancel : isCancelled b id = true) :
    r = some (.error .cancelled) := by
  cases hc : b.consumer? id with
  | none => simp [isCancelled, hc] at hcancel
  | some c =>
    rw [isCancelled_eq hc] at hcancel
    rw [resume_cancelled hc hcancel] at h
    exact (Prod.mk.inj h).1.symm

/-- A session's acts do not cancel it, nor undo that. -/
theorem Act.same_cancelled {deaf : Bool} (h : Act id deaf p p') (hstage : p'.stage.isLast = false) :
    p.stage.isLast = false ∧ isCancelled p'.broker id = isCancelled p.broker id := by
  cases h with
  | aside => exact ⟨hstage, rfl⟩
  | pending | failed | read | unknown | init | arrived => exact ⟨rfl, rfl⟩
  | @settled _ b _ _ v _ _ hs | @unsettled _ b _ _ v _ _ _ hs =>
    have hsame := isCancelled_settle b id v
    rw [hs] at hsame
    exact ⟨rfl, hsame⟩
  | @begun _ b _ _ _ hs | @asleep _ b _ _ hs =>
    have hheeds := heeds_begin b id
    rw [hs] at hheeds
    exact ⟨rfl, hheeds.same⟩
  | @resumed _ b _ _ _ hs | @still _ b _ _ hs =>
    have hheeds := heeds_resume b id
    rw [hs] at hheeds
    exact ⟨rfl, hheeds.same⟩
  | cancelled | ended | lost | putBack | said | unsaid | closed => cases hstage

theorem Acts.same_cancelled {deaf : Bool} (h : Acts id deaf p p')
    (hstage : p'.stage.isLast = false) : isCancelled p'.broker id = isCancelled p.broker id := by
  induction h with
  | refl => rfl
  | tail _ hact ih =>
    obtain ⟨hbefore, hsame⟩ := hact.same_cancelled hstage
    exact hsame.trans (ih hbefore)

/-- What of a point of a run goes back to the session at its beginning: one that was cancelled then
does nothing but end. -/
def Stage.isFrom (first : Stage) : Stage → Prop
  | .obeying _ | .asking _ | .answering _ | .closing (some _) => False
  | .reading => first = .reading
  | .waiting command => first = .waiting command
  | .parting | .closing none | .gone => True

/-- A point of a run of this session that began at this broker. -/
structure Converses (s : Session) (b₀ : Broker) (id : ConsumerId) (p : Point) : Prop where
  told : Recounts id (s.Ends b₀ id) p.stage (p.broker.deeds id)
  cancelled : p.stage.isLast = false → isCancelled p.broker id = isCancelled b₀ id
  heeded : isCancelled b₀ id = true → s.stage.isFrom p.stage

/-- A call for a message tells of the message it returns, and of nothing else. -/
theorem next_told {r : Option (Except BrokerError Bytes)}
    (h : b.begin id = (r, b') ∨ b.resume id = (r, b')) :
    (∃ topic payload, r = some (.ok payload) ∧
      b'.deeds id = .claimed id topic payload :: b.deeds id) ∨
    (∀ payload, r ≠ some (.ok payload)) ∧ b'.deeds id = b.deeds id := by
  cases hc : b.consumer? id with
  | none =>
    obtain ⟨rfl, rfl⟩ := Prod.mk.inj (next_deeds_none hc h)
    exact .inr ⟨by simp, rfl⟩
  | some c =>
    rcases next_deeds hc h with ⟨payload, hr, hdeeds⟩ | hnone
    · exact .inl ⟨c.topic, payload, hr, hdeeds⟩
    · exact .inr hnone

/-- What a call for a message returns is the end of an exchange. -/
theorem Recounts.result {command : Command} {done : History} {result : Except BrokerError Bytes}
    (h : Dialogue id told) (hs : Settled id command done)
    (hb : done ++ .took id (.command command) :: told = b.deeds id)
    (hr : b.begin id = (some result, b') ∨ b.resume id = (some result, b'))
    (hcancel : result = .error .cancelled → reason .interrupted) :
    Recounts id reason (.ofResult result) (b'.deeds id) := by
  rcases next_told hr with ⟨topic, payload, hresult, hdeeds⟩ | ⟨hno, hdeeds⟩
  · cases hresult
    rw [hdeeds, ← hb]
    exact .answering h (.fetched hs topic payload) rfl
  · rw [hdeeds, ← hb]
    cases result with
    | ok payload => exact absurd rfl (hno payload)
    | error e =>
      cases e with
      | cancelled => exact .finished .interrupted rfl (hcancel rfl) (.interrupted h hs)
      | store _ | nothingClaimed | alreadyHolding => exact .closing h (.unfetched hs) (by decide)

-- What has been done before, stage by stage.

theorem Recounts.dialogue (h : Recounts id reason .reading told) : Dialogue id told := by
  cases h with
  | reading h => exact h
  | finished ending hstage => cases hstage

theorem Recounts.obeyed {command : Command} (h : Recounts id reason (.obeying command) told) :
    ∃ before, told = .took id (.command command) :: before ∧ Dialogue id before := by
  cases h with
  | obeying h => exact ⟨_, rfl, h⟩
  | finished ending hstage => cases hstage

theorem Recounts.asked {command : Command} {stage : Stage} (h : Recounts id reason stage told)
    (hstage : stage = .asking command ∨ stage = .waiting command) :
    ∃ done before, told = done ++ .took id (.command command) :: before ∧ Dialogue id before ∧
      Settled id command done := by
  cases h with
  | asking h hs | waiting h hs =>
    rcases hstage with hstage | hstage <;> cases hstage
    exact ⟨_, _, rfl, h, hs⟩
  | finished ending hlast => rcases hstage with rfl | rfl <;> cases hlast
  | reading | obeying | answering | closing => rcases hstage with hstage | hstage <;> cases hstage

theorem Recounts.handled {frame : Frame} {stage : Stage} (h : Recounts id reason stage told)
    (hstage : stage = .answering frame ∨ stage = .closing (some frame)) :
    ∃ item done before, told = done ++ .took id item :: before ∧ Dialogue id before ∧
      Handled id item done frame ∧ (stage = .answering frame ↔ frame.goesOn = true) := by
  cases h with
  | answering h hd hg =>
    rcases hstage with hstage | hstage <;> cases hstage
    exact ⟨_, _, _, rfl, h, hd, by simp [hg]⟩
  | closing h hd hl =>
    rcases hstage with hstage | hstage <;> cases hstage
    exact ⟨_, _, _, rfl, h, hd, by simp [hl]⟩
  | finished ending hlast => rcases hstage with rfl | rfl <;> cases hlast
  | reading | obeying | asking | waiting => rcases hstage with hstage | hstage <;> cases hstage

/-- What goes back at the end changes nothing else. -/
theorem Recounts.parted {stage stage' : Stage} {told' : History} (h : Recounts id reason stage told)
    (hstage : stage.isLast = true) (hstage' : stage'.isLast = true)
    (hput : told' = told ∨ ∃ topic, told' = .requeued id topic :: told) :
    Recounts id reason stage' told' := by
  cases h with
  | finished ending _ hr h =>
    rcases hput with rfl | ⟨topic, rfl⟩
    · exact .finished ending hstage' hr h
    · exact .finished ending hstage' hr (h.putBack topic)
  | reading | obeying | asking | waiting | answering | closing => cases hstage

/-- One that is cancelled may come to its end. -/
theorem isFrom_last {first stage : Stage} (h : stage.isLast = true) : first.isFrom stage := by
  cases stage with
  | parting | gone => trivial
  | closing last =>
    cases last with
    | none => trivial
    | some frame => cases h
  | reading | obeying | asking | waiting | answering => cases h

theorem isFrom_reading (h : s.stage.isFrom .reading) : s.position = .reading := by
  simp only [stage, Stage.isFrom] at h
  split at h
  · assumption
  · cases h

theorem isFrom_waiting {command : Command} (h : s.stage.isFrom (.waiting command)) :
    s.position = .awaiting command := by
  simp only [stage, Stage.isFrom] at h
  split at h
  · cases h
  · cases h
    assumption

/-- A session that has reached its end. -/
theorem Converses.last (h : Recounts id (s.Ends b₀ id) p.stage (p.broker.deeds id))
    (hstage : p.stage.isLast = true) : Converses s b₀ id p where
  told := h
  cancelled hnot := by
    rw [hstage] at hnot
    cases hnot
  heeded _ := isFrom_last hstage

/-- What a call for a message returns is the end of an exchange. -/
theorem Converses.result {stage : Stage} {inlet : Inlet} {command : Command}
    {result : Except BrokerError Bytes} (hp : Converses s b₀ id ⟨stage, inlet, b⟩)
    (hcancelled : (Stage.ofResult result).isLast = false → isCancelled b' id = isCancelled b₀ id)
    (hstage : stage = .asking command ∧ b.begin id = (some result, b') ∨
      stage = .waiting command ∧ b.resume id = (some result, b')) :
    Converses s b₀ id ⟨.ofResult result, inlet, b'⟩ := by
  obtain ⟨done, before, hb, h, hs⟩ := hp.told.asked (hstage.imp And.left And.left)
  have hheeds : Heeds id b (some result, b') := by
    rcases hstage with ⟨-, hr⟩ | ⟨-, hr⟩
    · exact hr ▸ heeds_begin b id
    · exact hr ▸ heeds_resume b id
  have hsame : isCancelled b id = isCancelled b₀ id :=
    hp.cancelled (by rcases hstage with ⟨rfl, -⟩ | ⟨rfl, -⟩ <;> rfl)
  -- Who is cancelled now was so at the beginning, and asleep.
  have hwaited : isCancelled b₀ id = true →
      result = .error .cancelled ∧ s.position = .awaiting command := by
    intro hcancel
    have hfrom := hp.heeded hcancel
    rcases hstage with ⟨rfl, -⟩ | ⟨rfl, hr⟩
    · exact hfrom.elim
    · exact ⟨Option.some.inj (resume_interrupted hr (hsame.trans hcancel)), isFrom_waiting hfrom⟩
  have htold : Recounts id (s.Ends b₀ id) (.ofResult result) (b'.deeds id) := by
    refine Recounts.result h hs hb.symm (hstage.imp And.right And.right) ?_
    rintro rfl
    have hcancel : isCancelled b₀ id = true := by
      by_contra hnot
      exact hheeds.only (hsame.trans (Bool.not_eq_true _ ▸ hnot)) rfl
    exact ⟨⟨command, (hwaited hcancel).2⟩, hcancel⟩
  refine ⟨htold, hcancelled, fun hcancel => ?_⟩
  rw [(hwaited hcancel).1]
  trivial

section
variable {stage : Stage} {inlet inlet' : Inlet} {command : Command} {frame : Frame}

/-- What has been read is read by one that was not cancelled. -/
theorem Converses.free (hp : Converses s b₀ id ⟨.reading, inlet, b⟩)
    (hc : isCancelled b id = false) : ¬ isCancelled b₀ id = true := by
  have hsame : isCancelled b id = isCancelled b₀ id := hp.cancelled rfl
  simp [← hsame, hc]

theorem converses_cancelled (hp : Converses s b₀ id ⟨.reading, inlet, b⟩)
    (hc : isCancelled b id = true) : Converses s b₀ id ⟨.parting, inlet, b⟩ := by
  have hcancel : isCancelled b₀ id = true := (hp.cancelled rfl).symm.trans hc
  have hends : s.Ends b₀ id .cancelled := ⟨isFrom_reading (hp.heeded hcancel), hcancel⟩
  exact .last (.finished .cancelled rfl hends (.cancelled hp.told.dialogue)) rfl

/-- The other side is gone, or as good as gone. -/
theorem converses_disconnected (hp : Converses s b₀ id ⟨.reading, inlet, b⟩) {item : Intake}
    (hi : item.isDisconnect = true) :
    Converses s b₀ id ⟨.parting, inlet', b.note (.took id item)⟩ := by
  refine .last ?_ rfl
  rw [deeds_note rfl]
  exact .finished .disconnected rfl trivial (.disconnected hp.told.dialogue hi)

theorem converses_undecodable (hp : Converses s b₀ id ⟨.reading, inlet, b⟩)
    (hc : isCancelled b id = false) {e : ReadError} (he : Undecodable e) :
    Converses s b₀ id
      ⟨.closing (some (.ofError .decodingCommand)), inlet', b.note (.took id (.failed e))⟩ := by
  refine ⟨?_, hp.cancelled, fun hcancel => absurd hcancel (hp.free hc)⟩
  rw [deeds_note rfl]
  exact .closing hp.told.dialogue (.undecodable he) (by decide)

theorem converses_failed (hp : Converses s b₀ id ⟨.reading, inlet, b⟩)
    (hc : isCancelled b id = false) (e : ReadError) :
    Converses s b₀ id ⟨.ofFailure e, inlet', b.note (.took id (.failed e))⟩ := by
  cases e with
  | lost | closed => exact converses_disconnected hp rfl
  | json flaw => exact converses_undecodable hp hc (.json flaw)
  | truncated => exact converses_undecodable hp hc .truncated
  | tooLong limit => exact converses_undecodable hp hc (.tooLong limit)

theorem converses_read (hp : Converses s b₀ id ⟨.reading, inlet, b⟩)
    (hc : isCancelled b id = false) (command : Command) :
    Converses s b₀ id ⟨.obeying command, inlet', b.note (.took id (.command command))⟩ := by
  refine ⟨?_, hp.cancelled, fun hcancel => absurd hcancel (hp.free hc)⟩
  rw [deeds_note rfl]
  exact .obeying hp.told.dialogue

theorem converses_settled (hp : Converses s b₀ id ⟨.obeying command, inlet, b⟩)
    (hcancelled : isCancelled b' id = isCancelled b₀ id) {v : Verdict} {error : ClientError}
    (hv : verdict? command = some (v, error)) (hs : b.settle id v = (.ok (), b')) :
    Converses s b₀ id ⟨.asking command, inlet, b'⟩ := by
  obtain ⟨before, hb, h⟩ := hp.told.obeyed
  refine ⟨?_, fun _ => hcancelled, hp.heeded⟩
  cases hc : b.consumer? id with
  | none => simp [settle, hc] at hs
  | some c =>
    rw [(settle_deeds hc hs).2, hb]
    exact .asking h (.verdict hv c.topic)

theorem converses_unsettled (hp : Converses s b₀ id ⟨.obeying command, inlet, b⟩)
    (hcancelled : isCancelled b' id = isCancelled b₀ id) {v : Verdict} {error : ClientError}
    {e : BrokerError} (hv : verdict? command = some (v, error))
    (hs : b.settle id v = (.error e, b')) :
    Converses s b₀ id ⟨.closing (some (.ofError error)), inlet, b'⟩ := by
  obtain ⟨before, hb, h⟩ := hp.told.obeyed
  refine ⟨?_, fun _ => hcancelled, hp.heeded⟩
  rw [settle_failed_deeds hs, hb]
  exact .closing h (.unsettled hv) (verdict_goesOn hv)

/-- There is nothing to return yet. -/
theorem converses_waiting (hp : Converses s b₀ id ⟨stage, inlet, b⟩)
    (hcancelled : isCancelled b' id = isCancelled b₀ id)
    (hstage : stage = .asking command ∧ b.begin id = (none, b') ∨
      stage = .waiting command ∧ b.resume id = (none, b')) :
    Converses s b₀ id ⟨.waiting command, inlet, b'⟩ := by
  obtain ⟨done, before, hb, h, hs⟩ := hp.told.asked (hstage.imp And.left And.left)
  refine ⟨?_, fun _ => hcancelled, fun hcancel => ?_⟩
  · rcases next_told (hstage.imp And.right And.right) with ⟨_, _, hnone, -⟩ | ⟨-, hdeeds⟩
    · cases hnone
    · rw [hdeeds, hb]
      exact .waiting h hs
  · have hfrom := hp.heeded hcancel
    rcases hstage with ⟨rfl, -⟩ | ⟨rfl, -⟩
    · exact hfrom.elim
    · exact hfrom

theorem converses_arrived (hp : Converses s b₀ id ⟨.answering frame, inlet, b⟩) :
    Converses s b₀ id ⟨.reading, inlet, b.note (.wrote id frame)⟩ := by
  obtain ⟨item, done, before, hb, h, hd, hg⟩ := hp.told.handled (.inl rfl)
  refine ⟨?_, hp.cancelled, fun hc => (hp.heeded hc).elim⟩
  rw [deeds_note rfl, hb]
  exact .reading (.exchange h hd (hg.mp rfl))

theorem converses_said (hp : Converses s b₀ id ⟨.closing (some frame), inlet, b⟩) :
    Converses s b₀ id ⟨.closing none, inlet, b.note (.wrote id frame)⟩ := by
  obtain ⟨item, done, before, hb, h, hd, hg⟩ := hp.told.handled (.inr rfl)
  refine .last ?_ rfl
  rw [deeds_note rfl, hb]
  exact .finished .answered rfl trivial (.answered h hd (by simpa using hg))

/-- Nobody hears the answer. -/
theorem converses_unwritten {stage' : Stage} (hp : Converses s b₀ id ⟨stage, inlet, b⟩)
    (hstage : stage = .answering frame ∨ stage = .closing (some frame)) (hdeaf : s.deaf = true)
    (hlast : stage'.isLast = true) : Converses s b₀ id ⟨stage', inlet, b⟩ := by
  obtain ⟨item, done, before, hb, h, hd, -⟩ := hp.told.handled hstage
  refine .last ?_ hlast
  rw [hb]
  exact .finished .unwritten hlast hdeaf (.unwritten h hd)

end

theorem Act.converses (h : Act id s.deaf p p') (hp : Converses s b₀ id p) :
    Converses s b₀ id p' := by
  have hcancelled : p'.stage.isLast = false → isCancelled p'.broker id = isCancelled b₀ id := by
    intro hstage
    obtain ⟨hbefore, hsame⟩ := h.same_cancelled hstage
    exact hsame.trans (hp.cancelled hbefore)
  cases h with
  | @aside stage inlet b n hn =>
    have hdeeds : (b.note n).deeds id = b.deeds id := (silent_note (Note.doer?_aside hn)).deeds id
    exact ⟨hdeeds.symm ▸ hp.told, hcancelled, hp.heeded⟩
  | pending => exact ⟨.reading hp.told.dialogue, hcancelled, hp.heeded⟩
  | cancelled hc => exact converses_cancelled hp hc
  | ended => exact converses_disconnected hp rfl
  | failed hc => exact converses_failed hp hc _
  | read hc => exact converses_read hp hc _
  | unknown =>
    obtain ⟨before, hb, h⟩ := hp.told.obeyed
    exact ⟨hb ▸ .answering h (.unknown _) (by decide), hcancelled, hp.heeded⟩
  | init =>
    obtain ⟨before, hb, h⟩ := hp.told.obeyed
    exact ⟨hb ▸ .asking h .init, hcancelled, hp.heeded⟩
  | settled hv hs => exact converses_settled hp (hcancelled rfl) hv hs
  | unsettled hv hs => exact converses_unsettled hp (hcancelled rfl) hv hs
  | begun hs => exact hp.result hcancelled (.inl ⟨rfl, hs⟩)
  | resumed hs => exact hp.result hcancelled (.inr ⟨rfl, hs⟩)
  | asleep hr => exact converses_waiting hp (hcancelled rfl) (.inl ⟨rfl, hr⟩)
  | still hr => exact converses_waiting hp (hcancelled rfl) (.inr ⟨rfl, hr⟩)
  | arrived => exact converses_arrived hp
  | lost hdeaf => exact converses_unwritten hp (.inl rfl) hdeaf rfl
  | said => exact converses_said hp
  | unsaid hdeaf => exact converses_unwritten hp (.inr rfl) hdeaf rfl
  | @putBack _ b => exact .last (hp.told.parted rfl rfl (nack_deeds b id)) rfl
  | @closed _ b =>
    refine .last (hp.told.parted rfl rfl ?_) rfl
    have hended : ((b.release id).note (.ended id)).deeds id = (b.release id).deeds id :=
      deeds_cons_of_ne (by simp [Note.doer?]) _
    rw [hended]
    exact release_deeds b id

theorem Acts.converses (h : Acts id s.deaf p p') (hp : Converses s b₀ id p) :
    Converses s b₀ id p' := by
  induction h with
  | refl => exact hp
  | tail _ hact ih => exact hact.converses ih

end Session

end TopicQueue

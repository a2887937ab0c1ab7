import TopicQueue.Proofs.Acknowledged
import TopicQueue.Proofs.LoneConsumer
import TopicQueue.Scene.Report

namespace TopicQueue

/-- The frame that a session has written. -/
def Note.frame? (id : ConsumerId) : Note → Option Frame
  | .wrote i frame => if i = id then some frame else none
  | _ => none

theorem Note.frame?_undone {id : ConsumerId} {n : Note} (h : n.doer? ≠ some id) :
    n.frame? id = none := by
  cases n with
  | wrote i frame =>
    rw [Note.doer?, ne_eq, Option.some.injEq] at h
    simp [frame?, h]
  | _ => rfl

theorem Note.frame?_record {n : Note} (h : n.isRecord = true) (id : ConsumerId) :
    n.frame? id = none := by
  cases n with
  | wrote => cases h
  | _ => rfl

/-- The frames that a session has written, in this order. -/
def History.frames (id : ConsumerId) (h : History) : List Frame :=
  (h.filterMap (Note.frame? id)).reverse

theorem History.frames_deeds (id : ConsumerId) (h : History) :
    frames id (deeds id h) = frames id h := by
  unfold frames deeds
  rw [List.filterMap_filter]
  congr 1
  apply List.filterMap_congr
  intro n _
  by_cases hn : n.doer? = some id
  · simp [hn]
  · simp [hn, Note.frame?_undone hn]

/-- What can be seen of a session and of its topic. -/
structure Story where
  frames : List Frame
  /-- What the session is at, unless it has ended. -/
  status : Option Status
  left : Queue
  deriving DecidableEq

namespace Story

/-- The session is over, and nobody has a claim. -/
def ended (messages : List Bytes) : Story := ⟨[], none, ⟨messages.map .ok, false⟩⟩

def prepend (frames : List Frame) (s : Story) : Story := { s with frames := frames ++ s.frames }

/-- The first message is written, or waited for. -/
def deliver (messages : List Bytes) (rest : Story) : Story :=
  match messages with
  | [] => ⟨[], some .waiting, ⟨[], false⟩⟩
  | payload :: _ => rest.prepend [.message payload]

/-- What a session has to come to that reads these commands, while these messages are published in
its topic; whether it holds the first of them is known. -/
def reference : List Command → Bool → List Bytes → Story
  | [], held, messages =>
    ⟨[], some (if held then .holding else .idle), ⟨messages.map .ok, held⟩⟩
  | .unknown _ :: commands, held, messages =>
    (reference commands held messages).prepend [.ofError .unrecognisedCommand]
  | .init :: commands, false, messages => deliver messages (reference commands true messages)
  | .init :: _, true, messages => (ended messages).prepend [.ofError .nextValue]
  | .ack :: commands, true, messages =>
    deliver messages.tail (reference commands true messages.tail)
  | .ack :: _, false, messages => (ended messages).prepend [.ofError .ack]
  | .nack :: commands, true, messages => deliver messages (reference commands true messages)
  | .nack :: _, false, messages => (ended messages).prepend [.ofError .nack]

@[simp] theorem prepend_prepend (f g : List Frame) (s : Story) :
    (s.prepend g).prepend f = s.prepend (f ++ g) := by
  simp [prepend]

/-- Settling the message at hand is answered with the next, or waited for. -/
theorem reference_settles {c : Command} {v : Verdict} {error : ClientError}
    (h : Session.verdict? c = some (v, error)) (commands : List Command) (messages : List Bytes) :
    reference (c :: commands) true messages =
      deliver (v.leaves messages) (reference commands true (v.leaves messages)) := by
  cases c <;> cases h <;> rfl

/-- Without one it is an error. -/
theorem reference_unsettled {c : Command} {v : Verdict} {error : ClientError}
    (h : Session.verdict? c = some (v, error)) (commands : List Command) (messages : List Bytes) :
    reference (c :: commands) false messages = (ended messages).prepend [.ofError error] := by
  cases c <;> cases h <;> rfl

end Story

namespace Broker

variable {b b' : Broker} {id other : ConsumerId}

/-- The frames that the journal tells of. -/
def frames (b : Broker) (id : ConsumerId) : List Frame := History.frames id b.notes

theorem frames_of_deeds (h : b'.deeds id = b.deeds id) : b'.frames id = b.frames id := by
  unfold frames
  rw [← History.frames_deeds id b'.notes, ← History.frames_deeds id b.notes]
  exact congrArg _ h

/-- Calls of consumers write nothing. -/
theorem Adds.frames (h : Adds other b b') : b'.frames id = b.frames id := by
  obtain ⟨new, he, hn⟩ := h
  have hnone : new.filterMap (Note.frame? id) = [] := by
    apply List.filterMap_eq_nil_iff.mpr
    intro n hm
    rcases hn n hm with hd | ⟨-, hr⟩
    · exact Note.frame?_undone (by simp [hd])
    · exact Note.frame?_record hr id
  unfold Broker.frames
  rw [he, History.frames, List.filterMap_append, hnone, List.nil_append, History.frames]

theorem frames_note {n : Note} (h : n.frame? id = none) : (b.note n).frames id = b.frames id := by
  simp [frames, notes, note, History.frames, h]

theorem frames_wrote (b : Broker) (id : ConsumerId) (frame : Frame) :
    (b.note (.wrote id frame)).frames id = b.frames id ++ [frame] := by
  simp [frames, notes, note, History.frames, Note.frame?]

end Broker

namespace Session
open Broker Story

/-- What is still to come of a session at a stage, when it is to read these commands, and these
messages are stored or still to be published. -/
def Stage.story (commands : List Command) (held : Bool) (messages : List Bytes) : Stage → Story
  | .reading => reference commands held messages
  | .obeying command => reference (command :: commands) held messages
  | .asking _ =>
    if held then (ended messages).prepend [.ofError .nextValue]
    else deliver messages (reference commands true messages)
  | .waiting _ => deliver messages (reference commands true messages)
  | .answering frame => (reference commands held messages).prepend [frame]
  | .closing (some frame) => (ended messages).prepend [frame]
  | .parting | .closing none | .gone => ended messages

/-- The session is at work, and no transport has failed it. -/
def Stage.isBusy : Stage → Bool
  | .reading | .obeying _ | .asking _ | .answering _ | .closing _ => true
  | .waiting _ | .parting | .gone => false

/-- How a session's consumer stands at a stage, what it holds, and which messages are stored. -/
inductive Poised (id : ConsumerId) (topic : String) (ready : List ConsumerId) (b : Broker) :
    Stage → Bool → List Bytes → Prop where
  | busy {stage held messages} (hs : stage.isBusy = true)
      (h : Lone id topic (some { topic, holding := held }) held messages ready b) :
      Poised id topic ready b stage held messages
  | parked {c}
      (h : Lone id topic (some { topic, waiting := true, wait := .parked }) false [] ready b) :
      Poised id topic ready b (.waiting c) false []
  | woken {c messages} (h : Lone id topic (some { topic, wait := .woken }) false messages ready b) :
      Poised id topic ready b (.waiting c) false messages
  | gone {messages} (h : Lone id topic none false messages ready b) :
      Poised id topic ready b .gone false messages

/-- With these commands and messages still to come, the session will come to this story. -/
def Told (id : ConsumerId) (topic : String) (ready : List ConsumerId) (commands : List Command)
    (payloads : List Bytes) (story : Story) (p : Point) : Prop :=
  ∃ unread held messages, p.inlet = .commands (unread.map .ok) false ∧
    Poised id topic ready p.broker p.stage held messages ∧
    story = (p.stage.story (unread ++ commands) held (messages ++ payloads)).prepend
      (p.broker.frames id)

variable {id : ConsumerId} {topic : String} {ready : List ConsumerId} {b b' : Broker}
  {stage : Stage} {held : Bool} {messages payloads : List Bytes} {commands : List Command}
  {story : Story} {p p' : Point}

/-- A change of the broker that its lone consumer does not see. -/
theorem Poised.change {ready' : List ConsumerId} (h : Poised id topic ready b stage held messages)
    (hl : ∀ {c? held messages}, Lone id topic c? held messages ready b →
      Lone id topic c? held messages ready' b') :
    Poised id topic ready' b' stage held messages := by
  cases h with
  | busy hs h => exact .busy hs (hl h)
  | parked h => exact .parked (hl h)
  | woken h => exact .woken (hl h)
  | gone h => exact .gone (hl h)

theorem Told.change {ready' : List ConsumerId}
    (h : Told id topic ready commands payloads story p)
    (hl : ∀ {c? held messages}, Lone id topic c? held messages ready p.broker →
      Lone id topic c? held messages ready' b')
    (hf : b'.frames id = p.broker.frames id) :
    Told id topic ready' commands payloads story { p with broker := b' } := by
  obtain ⟨unread, held, messages, hinlet, hp, hstory⟩ := h
  exact ⟨unread, held, messages, hinlet, hp.change hl, by rw [hstory, hf]⟩

theorem Poised.tasks (h : Poised id topic ready b stage held messages) : b.ready = ready := by
  cases h with
  | busy _ hl | parked hl | woken hl | gone hl => exact hl.ready

theorem Told.tasks (h : Told id topic ready commands payloads story p) :
    p.broker.ready = ready := by
  obtain ⟨_, _, _, -, hp, -⟩ := h
  exact hp.tasks

/-- The consumer stands where the session's position says. -/
theorem Told.stands {s : Session}
    (h : Told id topic ready commands payloads story ⟨s.stage, s.inlet, b⟩) : s.Stands b id := by
  obtain ⟨_, _, _, -, hp, -⟩ := h
  unfold Stands
  unfold Session.stage at hp
  cases hs : s.position with
  | reading =>
    rw [hs] at hp
    cases hp with
    | busy _ hl => exact ⟨_, hl.consumer, rfl, rfl⟩
  | awaiting c =>
    rw [hs] at hp
    cases hp with
    | busy hb => cases hb
    | parked hl => exact ⟨_, hl.consumer, .inl rfl⟩
    | woken hl => exact ⟨_, hl.consumer, .inr rfl⟩

/-- One of the commands to come has come. -/
theorem Told.pushed {c : Command} (h : Told id topic ready (c :: commands) payloads story p) :
    Told id topic ready commands payloads story
      { p with inlet := p.inlet.pushCommand (.ok c) } := by
  obtain ⟨unread, held, messages, hinlet, hp, hstory⟩ := h
  refine ⟨unread ++ [c], held, messages, ?_, hp, ?_⟩
  · simp [hinlet, Inlet.pushCommand]
  · simpa using hstory

/-- A message that is published wakes the consumer if that sleeps. -/
theorem Poised.published (h : Poised id topic ready b stage held messages)
    (hr : ready = [] ∨ ready = [id]) (payload : Bytes) :
    ∃ ready',
      Poised id topic ready' (b.publish topic payload).2 stage held (messages ++ [payload]) ∧
      (ready' = [id] ∨ ready' = ready ∧ b.isWaiting id = false) := by
  cases h with
  | busy hs hl =>
    have hpublished := hl.publish (by rintro _ ⟨⟩; rfl) payload
    exact ⟨ready, .busy hs hpublished, .inr ⟨rfl, by simp [isWaiting, hl.consumer]⟩⟩
  | parked hl => exact ⟨[id], .woken (hl.publish_parked hr payload), .inl rfl⟩
  | woken hl =>
    have hpublished := hl.publish (by rintro _ ⟨⟩; rfl) payload
    exact ⟨ready, .woken hpublished, .inr ⟨rfl, by simp [isWaiting, hl.consumer]⟩⟩
  | gone hl =>
    have hpublished := hl.publish (by rintro _ ⟨⟩) payload
    exact ⟨ready, .gone hpublished, .inr ⟨rfl, by simp [isWaiting, hl.consumer]⟩⟩

theorem Told.published {payload : Bytes}
    (h : Told id topic ready commands (payload :: payloads) story p)
    (hr : ready = [] ∨ ready = [id]) :
    ∃ ready', Told id topic ready' commands payloads story
        { p with broker := (p.broker.publish topic payload).2 } ∧
      (ready' = [id] ∨ ready' = ready ∧ p.broker.isWaiting id = false) := by
  obtain ⟨unread, held, messages, hinlet, hp, hstory⟩ := h
  have hframes : (p.broker.publish topic payload).2.frames id = p.broker.frames id :=
    frames_of_deeds ((silent_publish p.broker topic payload).deeds id)
  obtain ⟨ready', hp', hready⟩ := hp.published hr payload
  refine ⟨ready', ⟨unread, held, messages ++ [payload], hinlet, hp', ?_⟩, hready⟩
  rw [hstory, hframes, List.append_assoc, List.singleton_append]

/-- Where a call for a message leads that answers this command. -/
def Stage.ofCall (command : Command) : Option (Except BrokerError Bytes) → Stage
  | none => .waiting command
  | some result => .ofResult result

/-- Where the verdict leads that this command gives. -/
def Stage.ofVerdict (command : Command) (error : ClientError) : Except BrokerError Unit → Stage
  | .ok () => .asking command
  | .error _ => .closing (some (.ofError error))

theorem Told.settled {inlet : Inlet} {c : Command} {v : Verdict} {error : ClientError}
    (hv : verdict? c = some (v, error))
    (ht : Told id topic ready commands payloads story ⟨.obeying c, inlet, b⟩) :
    Told id topic ready commands payloads story
      ⟨.ofVerdict c error (b.settle id v).1, inlet, (b.settle id v).2⟩ := by
  obtain ⟨unread, held, messages, hinlet, hp, hstory⟩ := ht
  cases hp with
  | busy _ hl =>
    cases held with
    | false =>
      rw [settle_idle hl.consumer rfl]
      refine ⟨unread, false, messages, hinlet, .busy rfl hl, ?_⟩
      rw [hstory, Stage.story, reference_unsettled hv]
      rfl
    | true =>
      have hframes : (b.settle id v).2.frames id = b.frames id := (adds_settle b id v).frames
      obtain ⟨b', he, hl'⟩ := hl.settle rfl rfl rfl v
      rw [he] at hframes ⊢
      obtain ⟨payload, rest, rfl⟩ := hl.held_cons
      -- The message that is acked is there already, so what is published later comes after it.
      have hleaves : v.leaves (payload :: rest ++ payloads) =
          v.leaves (payload :: rest) ++ payloads := by cases v <;> rfl
      refine ⟨unread, false, v.leaves (payload :: rest), hinlet, .busy rfl hl', ?_⟩
      rw [hstory, hframes, Stage.story, reference_settles hv, hleaves]
      rfl

theorem Told.begun {inlet : Inlet} {c : Command}
    (ht : Told id topic ready commands payloads story ⟨.asking c, inlet, b⟩) :
    Told id topic ready commands payloads story
      ⟨.ofCall c (b.begin id).1, inlet, (b.begin id).2⟩ := by
  obtain ⟨unread, held, messages, hinlet, hp, hstory⟩ := ht
  have hframes : (b.begin id).2.frames id = b.frames id := (adds_begin b id).frames
  cases hp with
  | busy _ hl =>
    cases held with
    | true =>
      obtain ⟨b', he, hl'⟩ := hl.begin_holding
      rw [he] at hframes ⊢
      exact ⟨unread, true, messages, hinlet, .busy rfl hl', by rw [hstory, hframes]; rfl⟩
    | false =>
      cases messages with
      | nil =>
        obtain ⟨b', he, hl'⟩ := hl.begin_empty
        rw [he] at hframes ⊢
        exact ⟨unread, false, [], hinlet, .parked hl', by rw [hstory, hframes]; rfl⟩
      | cons payload rest =>
        obtain ⟨b', he, hl'⟩ := hl.begin_first
        rw [he] at hframes ⊢
        exact ⟨unread, true, payload :: rest, hinlet, .busy rfl hl', by rw [hstory, hframes]; rfl⟩

theorem Told.resumed {inlet : Inlet} {c : Command}
    (ht : Told id topic ready commands payloads story ⟨.waiting c, inlet, b⟩) :
    Told id topic ready commands payloads story
      ⟨.ofCall c (b.resume id).1, inlet, (b.resume id).2⟩ := by
  obtain ⟨unread, held, messages, hinlet, hp, hstory⟩ := ht
  have hframes : (b.resume id).2.frames id = b.frames id := (adds_resume b id).frames
  cases hp with
  | busy hs => cases hs
  | parked hl =>
    rw [resume_asleep hl.consumer rfl (by simp)]
    exact ⟨unread, false, [], hinlet, .parked hl, hstory⟩
  | woken hl =>
    cases messages with
    | nil =>
      obtain ⟨b', he, hl'⟩ := hl.resume_empty
      rw [he] at hframes ⊢
      exact ⟨unread, false, [], hinlet, .parked hl', by rw [hstory, hframes]; rfl⟩
    | cons payload rest =>
      obtain ⟨b', he, hl'⟩ := hl.resume_first
      rw [he] at hframes ⊢
      exact ⟨unread, true, payload :: rest, hinlet, .busy rfl hl', by rw [hstory, hframes]; rfl⟩

/-- Whatever a session does that is alone with its topic, it has been foretold. -/
theorem Act.told (h : Act id false p p') (ht : Told id topic ready commands payloads story p) :
    Told id topic ready commands payloads story p' := by
  have ⟨unread, held, messages, hinlet, hp, hstory⟩ := ht
  cases h with
  | settled hv hs | unsettled hv hs =>
    have hsettled := ht.settled hv
    rwa [hs] at hsettled
  | begun hb | asleep hb =>
    have hbegun := ht.begun
    rwa [hb] at hbegun
  | resumed hb | still hb =>
    have hresumed := ht.resumed
    rwa [hb] at hresumed
  | aside n hn =>
    exact ht.change (·.note n) (frames_note (Note.frame?_undone (by simp [Note.doer?_aside hn])))
  | cancelled hc =>
    cases hp with
    | busy _ hl => simp [isCancelled, hl.consumer] at hc
  | pending hn =>
    obtain rfl : _ = _ := hinlet
    cases unread <;> cases hn
    exact ⟨[], held, messages, rfl, hp, hstory⟩
  | ended _ hn | failed _ hn =>
    obtain rfl : _ = _ := hinlet
    cases unread <;> cases hn
  | read _ hn =>
    obtain rfl : _ = _ := hinlet
    cases unread with
    | nil => cases hn
    | cons c unread =>
      cases hn
      cases hp with
      | busy _ hl => exact ⟨unread, held, messages, rfl, .busy rfl (hl.note _), hstory⟩
  | unknown =>
    cases hp with
    | busy _ hl => exact ⟨unread, held, messages, hinlet, .busy rfl hl, hstory⟩
  | init =>
    cases hp with
    | busy _ hl =>
      refine ⟨unread, held, messages, hinlet, .busy rfl hl, ?_⟩
      cases held <;> exact hstory
  | arrived _ | said _ =>
    cases hp with
    | busy _ hl =>
      refine ⟨unread, held, messages, hinlet, .busy rfl (hl.note _), ?_⟩
      rw [hstory, frames_wrote, ← prepend_prepend]
      rfl
  | closed =>
    cases hp with
    | busy _ hl =>
      refine ⟨unread, false, messages, hinlet, .gone (hl.release.note _), ?_⟩
      rw [hstory, frames_note rfl, (adds_release _ id).frames]
      rfl
  | putBack =>
    cases hp with
    | busy hs => cases hs
  | lost hd | unsaid hd => cases hd

theorem Acts.told (h : Acts id false p p') (ht : Told id topic ready commands payloads story p) :
    Told id topic ready commands payloads story p' := by
  induction h with
  | refl => exact ht
  | tail _ hact ih => exact hact.told ih

/-- A session that reads on has read all there was. -/
theorem serve_reads {s s' : Session} {turns : Nat} {queue : List (Except ReadError Command)}
    (hlen : queue.length < turns)
    (hs : serve s id turns (.commands queue false) b = (some s', b'))
    (hp : s'.position = .reading) : s'.inlet = .commands [] false := by
  induction turns generalizing queue b with
  | zero => simp at hlen
  | succ turns ih =>
    simp only [serve] at hs
    split at hs
    · cases hs
    · cases queue with
      | nil =>
        cases hs
        rfl
      | cons item queue =>
        cases item with
        | error e => cases hs
        | ok c =>
          dsimp only [Inlet.next] at hs
          split at hs
          · exact ih (by simpa using hlen) hs
          · cases hs
            cases hp
          · cases hs

theorem run_reads {s s' : Session} {queue : List (Except ReadError Command)}
    (hi : s.inlet = .commands queue false) (hs : s.run b id = (some s', b'))
    (hp : s'.position = .reading) : s'.inlet = .commands [] false := by
  have hlen : queue.length < s.inlet.unread + 1 := by simp [hi, Inlet.unread]
  unfold run at hs
  rw [hi] at hs hlen
  split at hs
  · exact serve_reads hlen hs hp
  · rename_i command hawaits
    split at hs
    · cases hs
      rw [hawaits] at hp
      cases hp
    · split at hs
      · exact serve_reads hlen hs hp
      · cases hs

/-- Nothing will happen to a session before something comes: it has read what there is, or
sleeps. -/
def Quiet (s : Session) (b : Broker) (id : ConsumerId) : Prop :=
  match s.position with
  | .reading => s.inlet = .commands [] false
  | .awaiting _ => b.isWaiting id = true

/-- What a run makes of a session that has been foretold. -/
def Runs (id : ConsumerId) (topic : String) (ready : List ConsumerId) (commands : List Command)
    (payloads : List Bytes) (story : Story) : Option Session × Broker → Prop
  | (none, b) => Told id topic ready commands payloads story ⟨.gone, .commands [] false, b⟩
  | (some s, b) =>
    s.deaf = false ∧ s.Quiet b id ∧
      Told id topic ready commands payloads story ⟨s.stage, s.inlet, b⟩

/-- A session runs until there is nothing to do. -/
theorem Told.runs {s : Session} (hdeaf : s.deaf = false)
    (h : Told id topic ready commands payloads story ⟨s.stage, s.inlet, b⟩) :
    Runs id topic ready commands payloads story (s.run b id) := by
  have hran := s.run_ran b id
  have hleaves := (run_leads h.stands).2
  have ⟨unread, _, _, hinlet, _, _⟩ := h
  generalize hr : s.run b id = r at hran hleaves
  cases hran with
  | gone inlet hacts =>
    rw [hdeaf] at hacts
    obtain ⟨_, held, messages, -, hp, hstory⟩ := hacts.told h
    exact ⟨[], held, messages, rfl, hp, hstory⟩
  | @paused b' inlet position hacts =>
    rw [hdeaf] at hacts
    have htold := hacts.told h
    refine ⟨hdeaf, ?_, htold⟩
    cases position with
    | reading => exact run_reads hinlet hr rfl
    | awaiting c =>
      obtain ⟨d, hd, hparked⟩ := hleaves
      obtain ⟨_, _, _, -, hp, -⟩ := htold
      cases hp with
      | busy hs => cases hs
      | parked hl => simp [Quiet, isWaiting, hl.consumer]
      | woken hl =>
        -- One that has been woken does not sleep.
        rw [hl.consumer] at hd
        cases hd
        cases hparked

end Session

end TopicQueue

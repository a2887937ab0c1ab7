import TopicQueue.Proofs.Drains
import TopicQueue.Proofs.LoneSession
import TopicQueue.Proofs.Wakes

namespace TopicQueue

namespace Service
open Broker Session

/-- What a session's task is at, between two runs. One that has ended reads nothing. -/
def point (s : Service) (id : ConsumerId) : Point :=
  match s.sessions.look id with
  | none => ⟨.gone, .commands [] false, s.broker⟩
  | some session => ⟨session.stage, session.inlet, s.broker⟩

/-- Nothing will happen to a session before something comes. -/
def Quiet (s : Service) (id : ConsumerId) : Prop :=
  ∀ session, s.sessions.look id = some session → session.Quiet s.broker id

/-- With these commands and messages still to come, and no task but its own, a session will come to
this story. -/
structure Foretold (id : ConsumerId) (topic : String) (commands : List Command)
    (payloads : List Bytes) (story : Story) (s : Service) : Prop where
  hears : ∀ session, s.sessions.look id = some session → session.deaf = false
  told : Told id topic s.broker.ready commands payloads story (s.point id)
  /-- Its task is to run if it has anything to do. -/
  awake : s.broker.ready = [id] ∨ s.broker.ready = [] ∧ s.Quiet id

variable {s : Service} {id : ConsumerId} {topic : String} {commands : List Command}
  {payloads : List Bytes} {story : Story} {session : Session}
  {ready : List ConsumerId}

theorem point_none (h : s.sessions.look id = none) :
    s.point id = ⟨.gone, .commands [] false, s.broker⟩ := by
  simp [point, h]

theorem point_some (h : s.sessions.look id = some session) :
    s.point id = ⟨session.stage, session.inlet, s.broker⟩ := by
  simp [point, h]

@[simp] theorem point_broker (s : Service) (id : ConsumerId) : (s.point id).broker = s.broker := by
  unfold point
  split <;> rfl

theorem point_setBroker (s : Service) (b : Broker) (id : ConsumerId) :
    point { s with broker := b } id = { s.point id with broker := b } := by
  unfold point
  dsimp only
  split <;> rfl

/-- A session that runs. -/
theorem foretold_some (hs : s.sessions.look id = some session) (hdeaf : session.deaf = false)
    (hready : s.broker.ready = ready)
    (htold : Told id topic ready commands payloads story ⟨session.stage, session.inlet, s.broker⟩)
    (hawake : ready = [id] ∨ ready = [] ∧ session.Quiet s.broker id) :
    s.Foretold id topic commands payloads story where
  hears := by
    intro session' hs'
    rw [hs] at hs'
    cases hs'
    exact hdeaf
  told := by
    rw [point_some hs, hready]
    exact htold
  awake := by
    rw [hready]
    refine hawake.imp_right fun h => ⟨h.1, ?_⟩
    intro session' hs'
    rw [hs] at hs'
    cases hs'
    exact h.2

/-- One that has ended. -/
theorem foretold_none (hs : s.sessions.look id = none)
    (htold : Told id topic [] commands payloads story ⟨.gone, .commands [] false, s.broker⟩) :
    s.Foretold id topic commands payloads story where
  hears := by simp [hs]
  told := by
    rw [point_none hs, htold.tasks]
    exact htold
  awake := .inr ⟨htold.tasks, by simp [Quiet, hs]⟩

theorem Foretold.single (h : s.Foretold id topic commands payloads story) :
    s.broker.ready = [] ∨ s.broker.ready = [id] :=
  h.awake.symm.imp_left And.left

theorem Foretold.tick (h : s.Foretold id topic commands payloads story) (t : Int64) :
    Foretold id topic commands payloads story
      { s with broker := { s.broker with clock := t.toInt } } where
  hears := h.hears
  told := by
    rw [point_setBroker]
    refine h.told.change ?_ ?_
    · rw [point_broker]
      exact fun hl => hl.ticked t
    · rw [point_broker]
      rfl
  awake := h.awake

/-- The message that comes next has been published. -/
theorem Foretold.publish {payload : Bytes}
    (h : s.Foretold id topic commands (payload :: payloads) story) :
    Foretold id topic commands payloads story
      { s with broker := (s.broker.publish topic payload).2 } := by
  obtain ⟨ready, htold, hready⟩ := h.told.published h.single
  rw [point_broker] at htold hready
  have hsame : (s.broker.publish topic payload).2.ready = ready := htold.tasks
  refine ⟨h.hears, ?_, ?_⟩
  · rw [point_setBroker]
    dsimp only
    rw [hsame]
    exact htold
  · rcases hready with rfl | ⟨rfl, hwaits⟩
    · exact .inl hsame
    · rcases h.awake with hr | ⟨hr, hquiet⟩
      · exact .inl (hsame.trans hr)
      · refine .inr ⟨hsame.trans hr, ?_⟩
        intro session hs
        have hq := hquiet session hs
        -- A session that waits would have been woken.
        unfold Session.Quiet at hq ⊢
        cases hp : session.position with
        | reading => simpa [hp] using hq
        | awaiting c => simp [hp, hwaits] at hq

/-- The command that comes next has been sent. -/
theorem Foretold.feed {c : Command} (h : s.Foretold id topic (c :: commands) payloads story) :
    (s.feed id (·.pushCommand (.ok c))).Foretold id topic commands payloads story := by
  cases hs : s.sessions.look id with
  | none =>
    have hsame : s.feed id (·.pushCommand (.ok c)) = s := by simp [Service.feed, hs]
    rw [hsame]
    refine ⟨h.hears, ?_, h.awake⟩
    have htold := h.told
    rw [point_none hs] at htold ⊢
    exact htold
  | some session =>
    have htold := h.told.pushed
    rw [point_some hs] at htold
    cases hp : session.position with
    | reading =>
      have hfeed : s.feed id (·.pushCommand (.ok c)) =
          ⟨s.broker.enqueue id, s.sessions.put id
            { session with inlet := session.inlet.pushCommand (.ok c) }⟩ := by
        simp [Service.feed, hs, hp]
      have hframes : (s.broker.enqueue id).frames id = s.broker.frames id :=
        frames_of_deeds ((silent_enqueue s.broker id).deeds id)
      have hfed := htold.change (fun hl => hl.enqueue h.single) hframes
      have hready : (s.broker.enqueue id).ready = [id] := hfed.tasks
      rw [hfeed]
      exact foretold_some (Table.look_put_self ..) (h.hears session hs) hready hfed (.inl rfl)
    | awaiting command =>
      have hfeed : s.feed id (·.pushCommand (.ok c)) =
          ⟨s.broker, s.sessions.put id
            { session with inlet := session.inlet.pushCommand (.ok c) }⟩ := by
        simp [Service.feed, hs, hp]
      rw [hfeed]
      refine foretold_some (Table.look_put_self ..) (h.hears session hs) rfl htold
        (h.awake.imp_right fun hawake => ?_)
      have hq := hawake.2 session hs
      exact ⟨hawake.1, by simpa [Session.Quiet, hp] using hq⟩

/-- The task of a session that has been foretold has run, and there is nothing left to do. -/
theorem ran_foretold (hears : ∀ session, s.sessions.look id = some session → session.deaf = false)
    (htold : Told id topic [] commands payloads story (s.point id)) :
    (s.run id).Foretold id topic commands payloads story ∧ (s.run id).broker.ready = [] := by
  cases hs : s.sessions.look id with
  | none =>
    rw [point_none hs] at htold
    have hgone : s.broker.consumer? id = none := by
      obtain ⟨_, _, _, -, hp, -⟩ := htold
      cases hp with
      | busy hb => cases hb
      | gone hl => exact hl.consumer
    have hsame : s.run id = s := by simp [run, hs, runNext, hgone]
    rw [hsame]
    exact ⟨foretold_none hs htold, htold.tasks⟩
  | some session =>
    rw [point_some hs] at htold
    have hruns := Told.runs (hears session hs)
      (htold.change (fun hl => hl.spanned session.span) rfl)
    dsimp only at hruns
    cases hr : session.run { s.broker with span := session.span } id with
    | mk left b =>
      rw [hr] at hruns
      rw [run_session hs hr]
      cases left with
      | none =>
        have hover := Told.change hruns (fun hl => hl.spanned none) rfl
        exact ⟨foretold_none (Table.look_remove_self ..) hover, hover.tasks⟩
      | some session' =>
        obtain ⟨hdeaf, hquiet, hleft⟩ := hruns
        have hgoes := hleft.change (fun hl => hl.spanned none) rfl
        exact ⟨foretold_some (Table.look_put_self ..) hdeaf hgoes.tasks hgoes (.inr ⟨rfl, hquiet⟩),
          hgoes.tasks⟩

theorem Foretold.drain (h : s.Foretold id topic commands payloads story) :
    s.drain.Foretold id topic commands payloads story ∧ s.drain.broker.ready = [] := by
  rcases h.single with hr | hr
  · unfold Service.drain
    rw [runMany_idle hr]
    exact ⟨h, hr⟩
  · have htaken : Told id topic [] commands payloads story
        (point { s with broker := { s.broker with ready := [] } } id) := by
      have hscheduled := h.told.change (fun hl => hl.scheduled []) rfl
      rw [point_broker] at hscheduled
      rw [point_setBroker]
      exact hscheduled
    have hran := ran_foretold (s := { s with broker := { s.broker with ready := [] } })
      h.hears htaken
    have hweight : s.weight ≠ 0 := by simp [weight, hr]
    obtain ⟨turns, hturns⟩ := Nat.exists_eq_succ_of_ne_zero hweight
    have hdrain : s.drain = run { s with broker := { s.broker with ready := [] } } id := by
      simp only [Service.drain, hturns, runMany, dequeue, hr]
      exact runMany_idle hran.2 turns
    rw [hdrain]
    exact hran

end Service

/-- A command for a session or a message for its topic, when it comes, and whether the tasks that it
wakes run only later. -/
structure Input where
  content : Command ⊕ Bytes
  time : Int64
  defer : Bool
  deriving DecidableEq

namespace Input

def action (topic name : String) (i : Input) : Action :=
  match i.content with
  | .inl command => .command name command
  | .inr payload => .publish topic payload

def commands (inputs : List Input) : List Command := inputs.filterMap (·.content.getLeft?)

def payloads (inputs : List Input) : List Bytes := inputs.filterMap (·.content.getRight?)

end Input

namespace Scene
open Broker Session Story

/-- What can be seen of a session and its topic. -/
def story (s : Scene) (id : ConsumerId) (topic : String) : Story where
  frames := s.broker.frames id
  status := (s.service.sessions.look id).map fun _ => s.status { id }
  left := s.broker.store.queue topic

/-- Nobody is at this topic, the store is open and does not fail, and no task is to run. -/
structure Vacant (s : Scene) (topic : String) : Prop where
  isOpen : s.broker.store.closed = false
  unarmed : s.broker.faults.Unarmed
  rested : s.broker.ready = []
  unattended : ∀ id c, s.broker.consumer? id = some c → c.topic ≠ topic
  unclaimed : s.broker.store.claim? topic = none

def receive (topic name : String) (s : Scene) (i : Input) : Scene :=
  ((s.setBroker { s.broker with clock := i.time.toInt }).step ⟨i.action topic name, i.defer⟩).2

/-- A session is begun, its inputs come one after another, and then all tasks run. -/
def serveAlone (s : Scene) (topic name : String) (defer : Bool) (inputs : List Input) : Scene :=
  let served := inputs.foldl (receive topic name) (s.step ⟨.session topic name false, defer⟩).2
  { served with service := served.service.drain }

/-- What is still to come of a session that goes by this name. -/
structure Foretold (name : String) (id : ConsumerId) (topic : String) (commands : List Command)
    (payloads : List Bytes) (story : Story) (s : Scene) : Prop where
  client : s.clients.look name = some { id, chunked := false }
  service : s.service.Foretold id topic commands payloads story

variable {s : Scene} {name topic : String} {id : ConsumerId} {commands : List Command}
  {payloads : List Bytes} {told : Story}

theorem Foretold.drain (h : s.Foretold name id topic commands payloads told) :
    Foretold name id topic commands payloads told { s with service := s.service.drain } :=
  ⟨h.client, h.service.drain.1⟩

/-- The next input comes. -/
theorem Foretold.perform {i : Input} {inputs : List Input}
    (h : s.Foretold name id topic (Input.commands (i :: inputs)) (Input.payloads (i :: inputs))
      told) :
    (s.perform (i.action topic name)).2.Foretold name id topic (Input.commands inputs)
      (Input.payloads inputs) told := by
  obtain ⟨content, time, defer⟩ := i
  cases content with
  | inr payload => exact ⟨h.client, h.service.publish⟩
  | inl c =>
    have hfed : (s.perform (.command name c)).2 =
        { s with service := s.service.feed id (·.pushCommand (.ok c)) } := by
      cases hs : s.service.sessions.look id <;>
        simp [Scene.perform, h.client, send, Service.feed, hs]
    have hcommands := h.service.feed
    change Foretold _ _ _ _ _ _ (s.perform (.command name c)).2
    rw [hfed]
    exact ⟨h.client, hcommands⟩

theorem Foretold.receive {i : Input} {inputs : List Input}
    (h : s.Foretold name id topic (Input.commands (i :: inputs)) (Input.payloads (i :: inputs))
      told) :
    (s.receive topic name i).Foretold name id topic (Input.commands inputs)
      (Input.payloads inputs) told := by
  have hticked : Foretold name id topic (Input.commands (i :: inputs))
      (Input.payloads (i :: inputs)) told
      (s.setBroker { s.broker with clock := i.time.toInt }) :=
    ⟨h.client, h.service.tick i.time⟩
  have hperformed := hticked.perform
  unfold Scene.receive Scene.step
  dsimp only
  split
  · exact hperformed
  · exact hperformed.drain

theorem Foretold.receive_all {inputs : List Input}
    (h : s.Foretold name id topic (Input.commands inputs) (Input.payloads inputs) told) :
    (inputs.foldl (Scene.receive topic name) s).Foretold name id topic [] [] told := by
  induction inputs generalizing s with
  | nil => exact h
  | cons i inputs ih => exact ih h.receive

/-- When nothing is to come any more and nothing is left to do, it has come to the story. -/
theorem Foretold.story_eq (h : s.Foretold name id topic [] [] told)
    (hr : s.broker.ready = []) : s.story id topic = told := by
  have hquiet : s.service.Quiet id := by
    rcases h.service.awake with hb | ⟨-, hquiet⟩
    · have hnone : s.broker.ready = [id] := hb
      rw [hr] at hnone
      cases hnone
    · exact hquiet
  have htold := h.service.told
  cases hs : s.service.sessions.look id with
  | none =>
    rw [Service.point_none hs] at htold
    obtain ⟨_, _, messages, -, hp, rfl⟩ := htold
    cases hp with
    | busy hb => cases hb
    | gone hl =>
      simp [Scene.story, Scene.broker, hs, hl.queue, Stage.story, ended, prepend]
  | some session =>
    rw [Service.point_some hs] at htold
    have hq := hquiet session hs
    obtain ⟨unread, held, messages, hinlet, hp, rfl⟩ := htold
    unfold Session.Quiet at hq
    unfold Session.stage at hp ⊢
    cases hpos : session.position with
    | reading =>
      rw [hpos] at hp hq
      cases hp with
      | busy _ hl =>
        obtain rfl : unread = [] := by simpa [hq] using hinlet
        cases held <;>
          simp [Scene.story, Scene.broker, status, hs, hl.consumer, hl.queue, Stage.story,
            reference, prepend]
    | awaiting c =>
      rw [hpos] at hp hq
      cases hp with
      | busy hb => cases hb
      | parked hl =>
        simp [Scene.story, Scene.broker, status, hs, hl.consumer, hl.queue, Stage.story, deliver,
          prepend]
      | woken hl => simp [isWaiting, hl.consumer] at hq

/-- A new session has all before it. -/
theorem Reachable.foretold (hs : s.Reachable) (hv : s.Vacant topic) (name : String) :
    ∃ stored : List Bytes, s.broker.store.queue topic = ⟨stored.map .ok, false⟩ ∧
      ∀ commands payloads, Foretold name s.broker.nextId topic commands payloads
        (reference commands false (stored ++ payloads))
        (s.perform (.session topic name false)).2 := by
  obtain ⟨stored, hstored, -⟩ := (hs.accounted .refl).balanced topic
  have hqueue : s.broker.store.queue topic = ⟨stored.map .ok, false⟩ := by
    have hentries : (s.broker.store.queue topic).entries = stored.map .ok := hstored
    have hclaimed : (s.broker.store.queue topic).claimed = false := by
      rw [Store.claimed_queue, hv.unclaimed, Option.isSome_none]
    rw [← hentries, ← hclaimed]
  refine ⟨stored, hqueue, fun commands payloads => ⟨Table.look_put_self .., ?_⟩⟩
  have hroster : ((s.broker.roster? topic).getD { topic }).members = [] := by
    cases hr : s.broker.roster? topic with
    | none => rfl
    | some r =>
      rw [Option.getD_some]
      refine List.eq_nil_iff_forall_not_mem.mpr fun other ho => ?_
      obtain ⟨c, hc, ht⟩ := hs.watched.1.enrolled topic r hr other ho
      exact hv.unattended other c hc ht
  have haccounted := hs.accounted .refl
  have hjoined : Lone s.broker.nextId topic (some { topic }) false stored []
      (s.broker.subscribe topic).2 := by
    refine ⟨hv.isOpen, haccounted.sound, hv.unarmed, haccounted.clock, hqueue, ?_, ?_, hv.rested⟩
    · rw [consumer?_subscribe, if_pos rfl]
    · rw [roster?_subscribe, if_pos rfl]
      simp [Roster.enrol, hroster]
  have hawake := hjoined.enqueue (.inl rfl)
  have hframes : ((s.broker.subscribe topic).2.enqueue s.broker.nextId).frames s.broker.nextId =
      [] := by
    have hsilent := (silent_subscribe s.broker topic).trans (silent_enqueue _ s.broker.nextId)
    have hdeeds := (hsilent.deeds s.broker.nextId).trans (hs.deeds_fresh (Nat.le_refl _))
    rw [Broker.frames, ← History.frames_deeds]
    exact congrArg _ hdeeds
  refine Service.foretold_some (Table.look_put_self ..) rfl hawake.ready ?_ (.inl rfl)
  refine ⟨[], false, stored, rfl, .busy rfl hawake, ?_⟩
  exact (congrArg (prepend · _) hframes).symm

/-- What can be seen of a session that has its topic for itself is what its commands make of the
messages, whichever way the ones come between the others and whenever tasks run. -/
theorem lone_session_determined (hs : s.Reachable) (hv : s.Vacant topic) (name : String) :
    ∃ stored : List Bytes, s.broker.store.queue topic = ⟨stored.map .ok, false⟩ ∧
      ∀ defer inputs, (s.serveAlone topic name defer inputs).story s.broker.nextId topic =
        reference (Input.commands inputs) false (stored ++ Input.payloads inputs) := by
  obtain ⟨stored, hqueue, hnew⟩ := hs.foretold hv name
  refine ⟨stored, hqueue, fun defer inputs => ?_⟩
  have hbegun : Foretold name s.broker.nextId topic (Input.commands inputs) (Input.payloads inputs)
      (reference (Input.commands inputs) false (stored ++ Input.payloads inputs))
      (s.step ⟨.session topic name false, defer⟩).2 := by
    unfold Scene.step
    dsimp only
    split
    · exact hnew _ _
    · exact (hnew _ _).drain
  have hserved := hbegun.receive_all
  exact hserved.drain.story_eq hserved.service.drain.2

/-- Somebody sleeps at one topic, and a message is left in another. -/
def sleeperBeside : List Step :=
  [⟨.subscribe "u" "c", false⟩, ⟨.next "c" false, false⟩, ⟨.publish "t" [1], false⟩]

/-- All commands come before the messages that they are for, and the session sleeps in between. -/
def commandsFirst : List Input :=
  [⟨.inl .init, 1, true⟩, ⟨.inl .ack, 2, true⟩, ⟨.inl (.unknown "x"), 3, false⟩,
   ⟨.inl .nack, 4, true⟩, ⟨.inr [2], 5, true⟩, ⟨.inr [3], 6, false⟩]

/-- The same, when the messages are there already. -/
def messagesFirst : List Input :=
  [⟨.inr [2], 1, false⟩, ⟨.inr [3], 2, true⟩, ⟨.inl .init, 3, false⟩, ⟨.inl .ack, 4, true⟩,
   ⟨.inl (.unknown "x"), 5, true⟩, ⟨.inl .nack, 6, true⟩]

theorem sleeperBeside_vacant : (after sleeperBeside).Vacant "t" where
  isOpen := by decide +kernel
  unarmed := by
    intro call
    cases call <;> rfl
  rested := by decide +kernel
  unattended := by
    have hconsumers : (after sleeperBeside).broker.consumers =
        [(0, { topic := "u", waiting := true, wait := .parked })] := by decide +kernel
    intro id c hc
    rw [consumer?, hconsumers] at hc
    simp only [Table.look] at hc
    split at hc
    · cases hc
      decide
    · cases hc
  unclaimed := by decide +kernel

theorem interleavings_meet :
    (after sleeperBeside).Vacant "t" ∧
    (∃ stored : List Bytes,
      (after sleeperBeside).broker.store.queue "t" = ⟨stored.map .ok, false⟩ ∧
      ∀ defer inputs, ((after sleeperBeside).serveAlone "t" "s" defer inputs).story 1 "t" =
        reference (Input.commands inputs) false (stored ++ Input.payloads inputs)) ∧
    ((after sleeperBeside).serveAlone "t" "s" true commandsFirst).story 1 "t" =
      ⟨[.message [1], .message [2], .ofError .unrecognisedCommand, .message [2]],
        some .holding, ⟨[.ok [2], .ok [3]], true⟩⟩ ∧
    ((after sleeperBeside).serveAlone "t" "s" false messagesFirst).story 1 "t" =
      ((after sleeperBeside).serveAlone "t" "s" true commandsFirst).story 1 "t" :=
  ⟨sleeperBeside_vacant,
    lone_session_determined (reachable_after (by decide)) sleeperBeside_vacant "s",
    by decide +kernel, by decide +kernel⟩

end Scene

end TopicQueue

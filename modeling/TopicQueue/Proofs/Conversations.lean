import TopicQueue.Proofs.Exchanges

namespace TopicQueue

open History

namespace Scene
open Broker Session

variable {s s' s₀ s₁ : Scene} {id : ConsumerId} {session : Session}

/-- What can happen in a scene at once, calls of the store itself included. -/
inductive Happens : Scene → Scene → Prop
  | tick (s : Scene) (t : Int64) : Happens s (s.setBroker { s.broker with clock := t.toInt })
  | act (s : Scene) (a : Action) : Happens s (s.perform a).2
  | task {s : Scene} {id : ConsumerId} {service : Service}
      (hd : s.service.dequeue = some (id, service)) : Happens s { s with service := service.run id }

/-- What can happen in a scene. -/
abbrev Onward : Scene → Scene → Prop := Relation.ReflTransGen Happens

/-- A new scene. -/
def start (flushOnInsert : Bool) : Scene :=
  { service := { broker := { store := { flushOnInsert } } } }

theorem onward_steps (s : Scene) (steps : List Step) :
    Onward s (steps.foldl (fun s t => (s.step t).2) s) := by
  have hdrained : ∀ (turns : Nat) (s : Scene),
      Onward s { s with service := s.service.runMany turns } := by
    intro turns
    induction turns with
    | zero => exact fun s => .refl
    | succ turns ih =>
      intro s
      simp only [Service.runMany]
      split
      · exact .refl
      · rename_i id service hd
        exact .head (.task hd) (ih { s with service := service.run id })
  have hstep : ∀ (s : Scene) (t : Step), Onward s (s.step t).2 := by
    intro s t
    unfold step
    dsimp only
    split
    · exact .single (.act s t.action)
    · exact .head (.act s t.action) (hdrained _ _)
  induction steps generalizing s with
  | nil => exact .refl
  | cons t steps ih => exact (hstep s t).trans (ih (s.step t).2)

/-- A call of the store itself changes the store, and may note what is stored. -/
theorem callStore_cases (s : Scene) (call : StoreCall) (topic : String) (payload : Bytes) :
    ∃ store, (s.callStore call topic payload).2 = s.setBroker { s.broker with store } ∨
      (s.callStore call topic payload).2 =
        s.setBroker ({ s.broker with store }.note (.stored topic payload)) := by
  cases call with
  | insert =>
    cases hi : s.broker.store.insert topic payload s.broker.clock with
    | error e => exact ⟨s.broker.store, .inl (by simp [callStore, hi]; rfl)⟩
    | ok store => exact ⟨store, .inr (by simp [callStore, hi])⟩
  | fetchNext =>
    cases hf : s.broker.store.fetchNext topic with
    | error e => exact ⟨s.broker.store, .inl (by simp [callStore, hf]; rfl)⟩
    | ok r => exact ⟨r.2, .inl (by simp [callStore, hf])⟩
  | commit =>
    cases hc : s.broker.store.commit topic with
    | error e => exact ⟨s.broker.store, .inl (by simp [callStore, hc]; rfl)⟩
    | ok store => exact ⟨store, .inl (by simp [callStore, hc])⟩
  | requeue =>
    cases hr : s.broker.store.requeue topic with
    | error e => exact ⟨s.broker.store, .inl (by simp [callStore, hr]; rfl)⟩
    | ok store => exact ⟨store, .inl (by simp [callStore, hr])⟩
  | close => exact ⟨s.broker.store.close, .inl rfl⟩

/-- That is nothing that a consumer or a session does. -/
theorem callStore_spares (s : Scene) (call : StoreCall) (topic : String) (payload : Bytes)
    (id : ConsumerId) : Spares id s.broker (s.callStore call topic payload).2.broker := by
  obtain ⟨store, he | he⟩ := s.callStore_cases call topic payload
  · rw [he]
    exact ⟨rfl, rfl⟩
  · have hspares : Spares id { s.broker with store }
        ({ s.broker with store }.note (.stored topic payload)) :=
      (silent_note rfl).spares (.of_eq rfl)
    rw [he]
    exact ⟨hspares.deeds, hspares.holder⟩

theorem callStore_orderly (ho : s.Orderly) (call : StoreCall) (topic : String) (payload : Bytes) :
    (s.callStore call topic payload).2.Orderly ∧
    (s.callStore call topic payload).2.broker.nextId = s.broker.nextId := by
  have hstands : ∀ id session, s.service.sessions.look id = some session →
      ∀ b : Broker, b.consumers = s.broker.consumers → session.Stands b id := by
    intro id session hs b hb
    refine (ho.service.stands id session hs).spared (.of_eq ?_)
    simp only [consumer?, hb]
    rfl
  obtain ⟨store, he | he⟩ := s.callStore_cases call topic payload <;>
  · rw [he]
    exact ⟨⟨⟨ho.service.fresh, fun id session hs => hstands id session hs _ rfl⟩, ho.callers⟩, rfl⟩

theorem Happens.orderly (ho : s.Orderly) (h : Happens s s') :
    s'.Orderly ∧ s.broker.nextId ≤ s'.broker.nextId := by
  have hmoves : ∀ {s' : Scene}, Moves s s' → s'.Orderly ∧ s.broker.nextId ≤ s'.broker.nextId :=
    fun hm => ⟨hm.orderly ho, hm.reaches.steps.nextId_le⟩
  cases h with
  | tick t => exact hmoves (moves_call fun _ => .tick t)
  | act a =>
    cases ha : a.isOwn with
    | true => exact hmoves ((s.performed a).moves ha)
    | false =>
      cases a with
      | store call topic payload =>
        obtain ⟨horderly, hn⟩ := callStore_orderly ho call topic payload
        exact ⟨horderly, Nat.le_of_eq hn.symm⟩
      | _ => cases ha
  | task hd => exact hmoves (ho.task hd)

/-- What is asked of a scene from outside is not asked of a session's consumer, or of one that is
not there. -/
theorem act_spares (a : Action)
    (hid : id < s.broker.nextId ∨ (s.perform a).2.broker.nextId ≤ id)
    (hfree : s.broker.ledger.holder id = none ∨
      ∀ name caller, s.callers.look name = some caller → id ≠ caller.id) :
    Spares id s.broker (s.perform a).2.broker := by
  cases ha : a.isOwn with
  | true => exact (s.performed a).spares ha hid hfree
  | false =>
    cases a with
    | store call topic payload => exact s.callStore_spares call topic payload id
    | _ => cases ha

/-- Nobody has done anything yet who is still to come. -/
theorem onward_fresh {flushOnInsert : Bool} (h : Onward (start flushOnInsert) s) :
    s.Orderly ∧ ∀ id, s.broker.nextId ≤ id → s.broker.deeds id = [] := by
  induction h with
  | refl =>
    refine ⟨⟨⟨fun _ _ => rfl, ?_⟩, ?_⟩, fun _ _ => rfl⟩ <;> simp [start, Table.look]
  | @tail s s' _ hstep ih =>
    obtain ⟨ho, hnone⟩ := ih
    obtain ⟨ho', hn⟩ := hstep.orderly ho
    refine ⟨ho', fun id hid => ?_⟩
    have hle := Nat.le_trans hn hid
    have hholder := ho.service.fresh id hle
    have hsession : s.service.sessions.look id = none := by
      cases hs : s.service.sessions.look id with
      | none => rfl
      | some session =>
        exact absurd ((ho.service.stands id session hs).lt ho.service.fresh) (Nat.not_lt.mpr hle)
    have hspares : Spares id s.broker s'.broker := by
      cases hstep with
      | tick t => exact ⟨rfl, rfl⟩
      | act a => exact act_spares a (.inr hid) (.inl hholder)
      | task hd => exact Service.task_spares hd (.inr ⟨hholder, hsession⟩)
    exact hspares.deeds.trans (hnone id hle)

/-- A running session, and what it has done so far. -/
inductive Conversing (s : Scene) (id : ConsumerId) : Prop where
  /-- All that it has read is answered. -/
  | reading {session : Session} (hs : s.service.sessions.look id = some session)
      (hp : session.position = .reading) (h : Dialogue id (s.broker.deeds id))
  /-- All but the last item is, and that is a command whose call for a message is pending. -/
  | awaiting {session : Session} {command done told} (hs : s.service.sessions.look id = some session)
      (hp : session.position = .awaiting command)
      (hd : s.broker.deeds id = done ++ .took id (.command command) :: told)
      (hsettled : Settled id command done) (h : Dialogue id told)

/-- A session that has ended since it was seen at `s₀`: how it stood when its last run began, and
what it has done. -/
inductive Concluded (s₀ s : Scene) (id : ConsumerId) : Prop where
  | ended (ending : Ending) {s₁ : Scene} {service : Service} {session : Session}
      (hbefore : Onward s₀ s₁) (h₁ : s₁.Conversing id)
      (hs : s₁.service.sessions.look id = some session)
      (hd : s₁.service.dequeue = some (id, service)) (he : session.Ends s₁.broker id ending)
      (hafter : Onward { s₁ with service := service.run id } s)
      (hgone : s.service.sessions.look id = none) (hc : s.broker.consumer? id = none)
      (h : Over id ending (s.broker.deeds id))

theorem Conversing.told (h : s.Conversing id) (reason : Ending → Prop) :
    ∃ session, s.service.sessions.look id = some session ∧
      Recounts id reason session.stage (s.broker.deeds id) := by
  cases h with
  | @reading session hs hp h =>
    refine ⟨session, hs, ?_⟩
    simp only [stage, hp]
    exact .reading h
  | @awaiting session command done told hs hp hd hsettled h =>
    refine ⟨session, hs, ?_⟩
    simp only [stage, hp, hd]
    exact .waiting h hsettled

theorem conversing {reason : Ending → Prop} (hs : s.service.sessions.look id = some session)
    (h : Recounts id reason session.stage (s.broker.deeds id)) : s.Conversing id := by
  cases hp : session.position with
  | reading =>
    simp only [stage, hp] at h
    exact .reading hs hp h.dialogue
  | awaiting command =>
    simp only [stage, hp] at h
    obtain ⟨done, before, hd, hbefore, hsettled⟩ := h.asked (.inr rfl)
    exact .awaiting hs hp hd hsettled hbefore

/-- Nothing has been done to the consumer, and the session is where it was. -/
theorem Conversing.spared (h : s.Conversing id) (hspares : Spares id s.broker s'.broker)
    (hposition : (s'.service.sessions.look id).map (·.position) =
      (s.service.sessions.look id).map (·.position)) : s'.Conversing id := by
  obtain ⟨session, hs, htold⟩ := h.told fun _ => False
  rw [hs, Option.map_some, Option.map_eq_some_iff] at hposition
  obtain ⟨session', hs', hp⟩ := hposition
  have hstage : session'.stage = session.stage := by simp only [stage, hp]
  rw [← hstage, ← hspares.deeds] at htold
  exact conversing hs' htold

/-- A run of the session itself. -/
theorem Conversing.ran (ho : s.Orderly) {service : Service} (h : s.Conversing id)
    (hd : s.service.dequeue = some (id, service)) :
    Conversing { s with service := service.run id } id ∨
    Concluded s { s with service := service.run id } id := by
  obtain ⟨session, hs, -⟩ := h.told fun _ => False
  obtain ⟨session', hs', htold⟩ := h.told (session.Ends s.broker id)
  rw [hs] at hs'
  cases hs'
  obtain ⟨rest, -, hbroker, hsessions⟩ := Service.dequeue_some hd
  have hlook : service.sessions.look id = some session := hsessions ▸ hs
  have hstart : Converses session s.broker id
      ⟨session.stage, session.inlet, { service.broker with span := session.span }⟩ := by
    rw [hbroker]
    refine ⟨htold, fun _ => rfl, fun _ => ?_⟩
    cases hp : session.position <;> simp [stage, hp, Stage.isFrom]
  have hran := session.run_ran { service.broker with span := session.span } id
  cases hrun : session.run { service.broker with span := session.span } id with
  | mk left b =>
    rw [hrun] at hran
    cases hran with
    | paused inlet position hacts =>
      left
      rw [Service.run_session hlook hrun]
      exact conversing (Table.look_put_self ..) (hacts.converses hstart).told
    | gone inlet hacts =>
      right
      have hended : (service.run id).sessions.look id = none := by
        rw [Service.run_session hlook hrun]
        exact Table.look_remove_self ..
      have hgone := (ho.service.dequeued hd).run_gone hlook hended
      have hdeeds : (service.run id).broker.deeds id = b.deeds id := by
        rw [Service.run_session hlook hrun]
        rfl
      cases (hacts.converses hstart).told with
      | finished ending _ he hover =>
        exact .ended ending .refl h hs hd he .refl hended hgone (hdeeds ▸ hover)

theorem Conversing.happens (ho : s.Orderly) (h : s.Conversing id) (hstep : Happens s s') :
    s'.Conversing id ∨ Concluded s s' id := by
  obtain ⟨session, hs, -⟩ := h.told fun _ => False
  have hlt := (ho.service.stands id session hs).lt ho.service.fresh
  cases hstep with
  | tick t => exact .inl (h.spared ⟨rfl, rfl⟩ rfl)
  | act a =>
    have hfree : ∀ name caller, s.callers.look name = some caller → id ≠ caller.id := by
      rintro name caller hc rfl
      rw [(ho.callers name caller hc).1] at hs
      cases hs
    rcases (s.performed a).position id with hposition | ⟨-, hnew, -⟩
    · exact .inl (h.spared (act_spares a (.inl hlt) (.inr hfree)) hposition)
    · exact absurd hnew (Nat.ne_of_lt hlt)
  | @task who service hd =>
    by_cases hne : id = who
    · rw [← hne] at hd ⊢
      exact h.ran ho hd
    · refine .inl (h.spared (Service.task_spares hd (.inl hne)) ?_)
      rw [Service.task_sessions_other hd hne]

theorem Concluded.head (hl : Onward s₀ s) (h : Concluded s s' id) : Concluded s₀ s' id := by
  cases h with
  | ended ending hbefore h₁ hs hd he hafter hgone hc h =>
    exact .ended ending (hl.trans hbefore) h₁ hs hd he hafter hgone hc h

/-- Who is gone does nothing more. -/
theorem Concluded.happens (hlt : id < s.broker.nextId) (h : Concluded s₀ s id)
    (hstep : Happens s s') : Concluded s₀ s' id := by
  cases h with
  | ended ending hbefore h₁ hs hd he hafter hgone hc h =>
    have hholder : s.broker.ledger.holder id = none := holder_none.mpr hc
    have hsame : Spares id s.broker s'.broker ∧ s'.service.sessions.look id = none := by
      cases hstep with
      | tick t => exact ⟨⟨rfl, rfl⟩, hgone⟩
      | act a =>
        refine ⟨act_spares a (.inl hlt) (.inl hholder), ?_⟩
        rcases (s.performed a).position id with hposition | ⟨-, hnew, -⟩
        · rwa [hgone, Option.map_none, Option.map_eq_none_iff] at hposition
        · exact absurd hnew (Nat.ne_of_lt hlt)
      | task hd' =>
        exact ⟨Service.task_spares hd' (.inr ⟨hholder, hgone⟩),
          Service.task_sessions_none hd' hgone⟩
    obtain ⟨hspares, hgone'⟩ := hsame
    refine .ended ending hbefore h₁ hs hd he (hafter.tail hstep) hgone' ?_ (hspares.deeds.symm ▸ h)
    exact holder_none.mp (hspares.holder.trans hholder)

/-- A new session has done nothing. -/
theorem conversing_new {flushOnInsert : Bool} (h : Onward (start flushOnInsert) s) {a : Action}
    {topic : String} (hid : id = s.broker.nextId)
    (hb : (s.perform a).2.broker = (s.broker.subscribe topic).2.enqueue s.broker.nextId)
    (hs : (s.perform a).2.service.sessions.look id = some session)
    (hp : session.position = .reading) : (s.perform a).2.Conversing id := by
  refine .reading hs hp ?_
  rw [hb, ((silent_subscribe _ topic).trans (silent_enqueue _ _)).deeds id,
    (onward_fresh h).2 id (Nat.le_of_eq hid.symm)]
  exact .nil

theorem onward_conversing {flushOnInsert : Bool} (h : Onward (start flushOnInsert) s)
    (hs : s.service.sessions.look id = some session) : s.Conversing id := by
  induction h generalizing session with
  | refl => cases hs
  | @tail s s' hl hstep ih =>
    -- A session that was there before goes on; it cannot have ended, since it is there.
    have hkept : ∀ before, s.service.sessions.look id = some before → s'.Conversing id := by
      intro before hbefore
      refine ((ih hbefore).happens (onward_fresh hl).1 hstep).resolve_right ?_
      rintro ⟨_, _, _, _, _, _, _, hgone, -, -⟩
      rw [hs] at hgone
      cases hgone
    cases hbefore : s.service.sessions.look id with
    | some before => exact hkept before hbefore
    | none =>
      cases hstep with
      | tick t =>
        have hsame : s.service.sessions.look id = some session := hs
        rw [hbefore] at hsame
        cases hsame
      | act a =>
        rcases (s.performed a).position id with hposition | ⟨topic, hid, hb, hnew⟩
        · rw [hs, hbefore] at hposition
          cases hposition
        · rw [hs, Option.map_some, Option.some.injEq] at hnew
          exact conversing_new hl hid hb hs hnew
      | task hd =>
        rw [Service.task_sessions_none hd hbefore] at hs
        cases hs

/-- Whatever else happens and whatever fails, from the time at which a session runs: each item that
it has read has been answered by the one frame that fits what was done about it, in order, and after
a last frame there is no session; but the last item may wait for its frame, or have got none because
the client was gone, could not be written to or cancelled the wait. -/
theorem items_answered {flushOnInsert : Bool} (hstart : Onward (start flushOnInsert) s₀)
    (hs : s₀.service.sessions.look id = some session) (hl : Onward s₀ s) :
    s.Conversing id ∨ Concluded s₀ s id := by
  have ho := (onward_fresh hstart).1
  have hlt := (ho.service.stands id session hs).lt ho.service.fresh
  have hends : id < s.broker.nextId ∧ (s.Conversing id ∨ Concluded s₀ s id) := by
    induction hl with
    | refl => exact ⟨hlt, .inl (onward_conversing hstart hs)⟩
    | tail hl hstep ih =>
      obtain ⟨hlt, h⟩ := ih
      have ho := (onward_fresh (hstart.trans hl)).1
      refine ⟨Nat.lt_of_lt_of_le hlt (hstep.orderly ho).2, ?_⟩
      rcases h with h | h
      · exact (h.happens ho hstep).imp_right (·.head hl)
      · exact .inr (h.happens hlt hstep)
  exact hends.2

/-- A session has started. -/
def opened : Scene := ((start false).step ⟨.session "t" "s" false, false⟩).2

/-- It answers an unknown command, writes a message, and fails to commit it. -/
def failedCommit : Scene :=
  [⟨.command "s" (.unknown "x"), false⟩, ⟨.publish "t" [1], false⟩, ⟨.command "s" .init, false⟩,
   ⟨.fault .commit ⟨.closed, 0, 1⟩, false⟩, ⟨.command "s" .ack, true⟩,
   ⟨.command "s" .init, false⟩].foldl (fun s t => (s.step t).2) opened

/-- It answers an unknown command, and then its input fails. -/
def failedInput (error : ReadError) : Scene :=
  [⟨.command "s" (.unknown "x"), false⟩, ⟨.fail "s" error, false⟩].foldl
    (fun s t => (s.step t).2) opened

theorem failedCommit_answered :
    (opened.service.sessions.look 0).isSome = true ∧
    ((failedCommit.Conversing 0 ∨ Concluded opened failedCommit 0) ∧
      failedCommit.broker.deeds 0 =
        [.requeued 0 "t", .wrote 0 (.ofError .ack), .took 0 (.command .ack),
         .wrote 0 (.message [1]), .claimed 0 "t" [1], .took 0 (.command .init),
         .wrote 0 (.ofError .unrecognisedCommand), .took 0 (.command (.unknown "x"))]) ∧
    (∀ error ∈ [.lost "gone", .closed],
      ((failedInput error).Conversing 0 ∨ Concluded opened (failedInput error) 0) ∧
      (failedInput error).broker.deeds 0 =
        [.took 0 (.failed error),
         .wrote 0 (.ofError .unrecognisedCommand), .took 0 (.command (.unknown "x"))]) ∧
    ∀ error ∈ [.json .mistyped, .truncated, .tooLong 1024],
      ((failedInput error).Conversing 0 ∨ Concluded opened (failedInput error) 0) ∧
      (failedInput error).broker.deeds 0 =
        [.wrote 0 (.ofError .decodingCommand), .took 0 (.failed error),
         .wrote 0 (.ofError .unrecognisedCommand), .took 0 (.command (.unknown "x"))] := by
  have hsome : (opened.service.sessions.look 0).isSome = true := by decide +kernel
  obtain ⟨session, hs⟩ := Option.isSome_iff_exists.mp hsome
  have hstart : Onward (start false) opened := onward_steps _ [⟨.session "t" "s" false, false⟩]
  refine ⟨hsome, ⟨items_answered hstart hs (onward_steps opened _), by rfl⟩, fun e he => ?_,
    fun e he => ?_⟩
  · refine ⟨items_answered hstart hs (onward_steps opened _), ?_⟩
    simp only [List.mem_cons, List.not_mem_nil, or_false] at he
    rcases he with rfl | rfl <;> rfl
  · refine ⟨items_answered hstart hs (onward_steps opened _), ?_⟩
    simp only [List.mem_cons, List.not_mem_nil, or_false] at he
    rcases he with rfl | rfl | rfl <;> rfl

end Scene

end TopicQueue

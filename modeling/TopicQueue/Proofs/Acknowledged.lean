import TopicQueue.Proofs.Bystanders
import TopicQueue.Proofs.Releases
import TopicQueue.Proofs.Removals

namespace TopicQueue

/-- What a session may do with a message at hand: answer commands that it does not know. -/
def Note.isPassing : Note → Bool
  | .took _ (.command (.unknown _)) | .wrote _ (.error _) => true
  | _ => false

namespace History

/-- The last message that a consumer got has been written to its client, and nothing but unknown
commands has been read and nothing but errors written since. -/
def Shown (id : ConsumerId) (topic : String) (payload : Bytes) (deeds : History) : Prop :=
  ∃ since before : History,
    deeds = since ++ .wrote id (.message payload) :: .claimed id topic payload :: before ∧
    ∀ n ∈ since, n.isPassing = true

/-- A message that has been shown, and an ack that has been read. -/
def Acked (id : ConsumerId) (topic : String) (payload : Bytes) (deeds : History) : Prop :=
  ∃ earlier, deeds = .took id (.command .ack) :: earlier ∧ Shown id topic payload earlier

/-- Every commit is of a message that was shown and acked right before. -/
def Earned (id : ConsumerId) (deeds : History) : Prop :=
  ∀ later topic earlier, deeds = later ++ .committed id topic :: earlier →
    ∃ payload, Acked id topic payload earlier

/-- Every commit is of the message that its consumer got last, which was the first that had not
been acked. -/
def CommitsLast (h : History) : Prop :=
  ∀ later id topic earlier, h = later ++ .committed id topic :: earlier →
    ∃ payload, delivery? id earlier = some (commits topic earlier, payload)

variable {id : ConsumerId} {topic : String} {payload : Bytes} {h told : History}

theorem Shown.passing {n : Note} (hn : n.isPassing = true) (h : Shown id topic payload told) :
    Shown id topic payload (n :: told) := by
  obtain ⟨since, before, rfl, hs⟩ := h
  exact ⟨n :: since, before, rfl, List.forall_mem_cons.mpr ⟨hn, hs⟩⟩

theorem Earned.cons {n : Note} (h : Earned id told)
    (hn : ∀ topic, n = .committed id topic → ∃ payload, Acked id topic payload told) :
    Earned id (n :: told) := by
  intro later topic earlier he
  rcases List.cons_eq_append_iff.mp he with ⟨-, he⟩ | ⟨later', -, he⟩
  · cases he
    exact hn topic rfl
  · exact h later' topic earlier he

/-- Whatever is no commit. -/
theorem Earned.other {n : Note} (h : Earned id told) (hn : ∀ topic, n ≠ .committed id topic) :
    Earned id (n :: told) :=
  h.cons fun topic he => absurd he (hn topic)

theorem CommitsLast.cons {n : Note} (h : CommitsLast told)
    (hn : ∀ id topic, n = .committed id topic →
      ∃ payload, delivery? id told = some (commits topic told, payload)) :
    CommitsLast (n :: told) := by
  intro later id topic earlier he
  rcases List.cons_eq_append_iff.mp he with ⟨-, he⟩ | ⟨later', -, he⟩
  · cases he
    exact hn id topic rfl
  · exact h later' id topic earlier he

/-- These look at records only. -/
theorem published_records (topic : String) (h : History) :
    published topic (h.filter Note.isRecord) = published topic h := by
  induction h with
  | nil => rfl
  | cons n h ih =>
    cases n with
    | called call t failure => cases failure <;> exact ih
    | _ => simp [List.filter_cons, Note.isRecord, published, ih]

theorem commits_records (topic : String) (h : History) :
    commits topic (h.filter Note.isRecord) = commits topic h := by
  induction h with
  | nil => rfl
  | cons n h ih =>
    cases n with
    | called call t failure => cases failure <;> exact ih
    | _ => simp [List.filter_cons, Note.isRecord, commits, ih]

theorem delivery?_records (id : ConsumerId) (h : History) :
    delivery? id (h.filter Note.isRecord) = delivery? id h := by
  induction h with
  | nil => rfl
  | cons n h ih =>
    cases n with
    | called call t failure => cases failure <;> exact ih
    | claimed i t payload => simp [List.filter_cons, Note.isRecord, delivery?, ih, commits_records]
    | _ => simp [List.filter_cons, Note.isRecord, delivery?, ih]

/-- What a consumer got last is among its deeds. -/
theorem delivery?_deeds (id : ConsumerId) (h : History) :
    (delivery? id (deeds id h)).map (·.2) = (delivery? id h).map (·.2) := by
  induction h with
  | nil => rfl
  | cons n h ih =>
    cases n with
    | claimed i t payload =>
      by_cases hi : i = id
      · simp [History.deeds, Note.doer?, delivery?, hi]
      · simpa [History.deeds, Note.doer?, delivery?, hi] using ih
    | committed i | requeued i | took i | wrote i =>
      by_cases hi : i = id <;> simpa [History.deeds, Note.doer?, delivery?, hi] using ih
    | _ => exact ih

theorem Acked.delivery (h : Acked id topic payload told) :
    (delivery? id told).map (·.2) = some payload := by
  obtain ⟨_, rfl, since, before, rfl, hs⟩ := h
  change (delivery? id (since ++ _)).map (·.2) = _
  induction since with
  | nil => simp [delivery?]
  | cons n since ih =>
    obtain ⟨hn, hs⟩ := List.forall_mem_cons.mp hs
    refine Eq.trans ?_ (ih hs)
    cases n <;> first | rfl | cases hn

end History

open History

namespace Ledger

variable {l l' : Ledger} {id : ConsumerId} {topic : String}

theorem Accounted.step_commitsLast (h : l.Accounted) (hs : Step l l')
    (hc : CommitsLast l.records) : CommitsLast l'.records := by
  cases hs with
  | stored | refused | claimed => exact hc.cons (by simp)
  | @settled s i t v hid hv =>
    refine hc.cons ?_
    rintro j t' he
    cases v with
    | ack =>
      cases he
      obtain ⟨-, payload, -, -, hd⟩ := h.owned i t hid
      exact ⟨payload, hd⟩
    | nack => cases he
  | closed | joined | left | ticked => exact hc

theorem Accounted.commitsLast (h : l.Accounted) (hs : Steps l l') (hc : CommitsLast l.records) :
    CommitsLast l'.records := by
  induction hs with
  | refl => exact hc
  | tail hsteps hstep ih => exact (h.steps hsteps).step_commitsLast hstep ih

/-- A consumer stays with its topic. -/
theorem Step.same_topic (hs : Step l l') (hlt : id < l.nextId)
    (ht : ∀ t held, l.holder id = some (t, held) → t = topic) :
    ∀ t held, l'.holder id = some (t, held) → t = topic := by
  intro t held hid
  cases hs with
  | stored | refused | closed | ticked => exact ht t held hid
  | @claimed s i t' held' payload hi hf =>
    simp only [Function.update_apply] at hid
    split at hid
    · rename_i he
      cases hid
      exact ht t held' (he ▸ hi)
    · exact ht t held hid
  | @settled s i t' v hi hv =>
    simp only [Function.update_apply] at hid
    split at hid
    · rename_i he
      cases hid
      exact ht t true (he ▸ hi)
    · exact ht t held hid
  | joined t' =>
    dsimp only at hid
    rw [Function.update_of_ne (Nat.ne_of_lt hlt)] at hid
    exact ht t held hid
  | left hi hleft =>
    simp only [Function.update_apply] at hid
    split at hid
    · cases hid
    · exact ht t held hid

theorem Steps.same_topic (hs : Steps l l') (hlt : id < l.nextId)
    (ht : ∀ t held, l.holder id = some (t, held) → t = topic) :
    ∀ t held, l'.holder id = some (t, held) → t = topic := by
  induction hs with
  | refl => exact ht
  | tail hsteps hstep ih =>
    exact hstep.same_topic (Nat.lt_of_lt_of_le hlt (Steps.nextId_le hsteps)) ih

end Ledger

theorem Note.isRecord_aside {n : Note} (h : n.isAside = true) : n.isRecord = false := by
  cases n <;> first | rfl | cases h

namespace Session
open Broker

variable {id : ConsumerId} {deaf : Bool} {p p' : Point} {topic : String} {stage : Stage}
  {b b' : Broker}

theorem Act.steps (h : Act id deaf p p') : Ledger.Steps p.broker.ledger p'.broker.ledger := by
  cases h with
  | aside n hn => exact steps_of_eq (ledger_note (Note.isRecord_aside hn))
  | ended | failed | read | arrived | said => exact steps_of_eq (ledger_note rfl)
  | cancelled | pending | unknown | init | lost | unsaid => exact .refl
  | @settled _ b _ _ v _ _ hs | @unsettled _ b _ _ v _ _ _ hs =>
    have hsettle := settle_steps b id v
    rwa [hs] at hsettle
  | @begun _ b _ _ _ hs | @asleep _ b _ _ hs =>
    have hbegin := begin_steps b id
    rwa [hs] at hbegin
  | @resumed _ b _ _ _ hs | @still _ b _ _ hs =>
    have hresume := resume_steps b id
    rwa [hs] at hresume
  | putBack => exact settle_steps _ id .nack
  | closed => exact (release_steps _ id).trans (steps_of_eq (ledger_note rfl))

/-- What a session at this stage has to have done, if it holds a message. -/
def Linked (id : ConsumerId) (topic : String) (deeds : History) : Stage → Prop
  | .reading => ∃ payload, Shown id topic payload deeds
  | .obeying command =>
    ∃ earlier payload, deeds = .took id (.command command) :: earlier ∧
      Shown id topic payload earlier
  | .answering frame => ∃ payload, Shown id topic payload (.wrote id frame :: deeds)
  | .asking _ | .waiting _ | .parting | .closing _ | .gone => True

/-- A session that has earned its commits so far, and can earn one only by an ack of what it has
written. -/
structure Honest (id : ConsumerId) (topic : String) (stage : Stage) (b : Broker) : Prop where
  known : id < b.nextId
  same_topic : ∀ t held, b.ledger.holder id = some (t, held) → t = topic
  earned : Earned id (b.deeds id)
  linked : b.ledger.holder id = some (topic, true) → Linked id topic (b.deeds id) stage

theorem Honest.spared (h : Honest id topic stage b) (hs : Spares id b b')
    (hn : b.nextId ≤ b'.nextId) : Honest id topic stage b' := by
  constructor
  case known => exact Nat.lt_of_lt_of_le h.known hn
  case same_topic => exact hs.holder.symm ▸ h.same_topic
  case earned => exact hs.deeds.symm ▸ h.earned
  case linked =>
    intro hh
    rw [hs.holder] at hh
    rw [hs.deeds]
    exact h.linked hh

theorem settled_earned {command : Command} {v : Verdict} {error : ClientError}
    (h : Honest id topic (.obeying command) b) (hv : verdict? command = some (v, error))
    (hs : b.settle id v = (.ok (), b')) : Earned id (b'.deeds id) := by
  cases hc : b.consumer? id with
  | none => simp [settle, hc] at hs
  | some c =>
    obtain ⟨hh, hdeeds⟩ := settle_deeds hc hs
    have hheld := holder_eq hc
    rw [h.same_topic _ _ hheld, hh] at hheld
    obtain ⟨earlier, payload, he, hshown⟩ := h.linked hheld
    rw [hdeeds]
    refine h.earned.cons ?_
    rintro t hrecord
    cases command with
    | ack =>
      cases hv
      cases hrecord
      exact ⟨payload, earlier, he, h.same_topic _ _ (holder_eq hc) ▸ hshown⟩
    | nack =>
      cases hv
      cases hrecord
    | init => cases hv
    | unknown text => cases hv

/-- A message is about to be written as soon as it has been got. -/
theorem next_earned {r : Option (Except BrokerError Bytes)} (h : Honest id topic stage b)
    (hr : b.begin id = (r, b') ∨ b.resume id = (r, b')) :
    Earned id (b'.deeds id) ∧ ∀ result, r = some result →
      Linked id topic (b'.deeds id) (.ofResult result) := by
  cases hc : b.consumer? id with
  | none =>
    obtain ⟨rfl, rfl⟩ := Prod.mk.inj (next_deeds_none hc hr)
    exact ⟨h.earned, by simp⟩
  | some c =>
    rcases next_deeds hc hr with ⟨payload, hgot, hdeeds⟩ | ⟨hno, hdeeds⟩
    · dsimp only at hgot hdeeds
      rw [hdeeds]
      refine ⟨h.earned.other (by simp), ?_⟩
      rintro result hresult
      rw [hgot] at hresult
      cases hresult
      have ht := h.same_topic _ _ (holder_eq hc)
      exact ⟨payload, [], b.deeds id, by rw [ht]; rfl, by simp⟩
    · dsimp only at hdeeds
      rw [hdeeds]
      refine ⟨h.earned, ?_⟩
      rintro result rfl
      cases result with
      | ok payload => exact absurd rfl (hno payload)
      | error e => cases e <;> trivial

theorem Act.honest (h : Act id deaf p p') (hp : Honest id topic p.stage p.broker) :
    Honest id topic p'.stage p'.broker := by
  have hknown : id < p'.broker.nextId := Nat.lt_of_lt_of_le hp.known h.steps.nextId_le
  have htopic := h.steps.same_topic hp.known hp.same_topic
  -- Where the session goes on to an end, its last commit is all there is to look at.
  have hends : Earned id (p'.broker.deeds id) →
      (p'.broker.ledger.holder id = some (topic, true) →
        Linked id topic (p'.broker.deeds id) p'.stage) →
      Honest id topic p'.stage p'.broker := fun he hl => ⟨hknown, htopic, he, hl⟩
  cases h with
  | @aside _ _ b n hn =>
    exact hp.spared ((silent_note (Note.doer?_aside hn)).spares (.of_eq rfl)) (Nat.le_refl _)
  | cancelled | lost | unsaid => exact hends hp.earned fun _ => trivial
  | pending => exact hends hp.earned hp.linked
  | ended =>
    rw [deeds_note rfl] at hends
    exact hends (hp.earned.other (by simp)) fun _ => trivial
  | failed =>
    rw [deeds_note rfl] at hends
    refine hends (hp.earned.other (by simp)) fun _ => ?_
    unfold Stage.ofFailure
    split <;> trivial
  | @read _ _ b c =>
    rw [deeds_note rfl] at hends
    refine hends (hp.earned.other (by simp)) fun hh => ?_
    obtain ⟨payload, hshown⟩ := hp.linked hh
    exact ⟨b.deeds id, payload, rfl, hshown⟩
  | unknown =>
    refine hends hp.earned fun hh => ?_
    obtain ⟨earlier, payload, he, hshown⟩ := hp.linked hh
    exact ⟨payload, he ▸ (hshown.passing rfl).passing rfl⟩
  | init => exact hends hp.earned fun _ => trivial
  | settled hv hs => exact hends (settled_earned hp hv hs) fun _ => trivial
  | unsettled hv hs =>
    rw [settle_failed_deeds hs] at hends
    exact hends hp.earned fun _ => trivial
  | begun hs =>
    obtain ⟨he, hl⟩ := next_earned hp (.inl hs)
    exact hends he fun _ => hl _ rfl
  | resumed hs =>
    obtain ⟨he, hl⟩ := next_earned hp (.inr hs)
    exact hends he fun _ => hl _ rfl
  | asleep hs => exact hends (next_earned hp (.inl hs)).1 fun _ => trivial
  | still hs => exact hends (next_earned hp (.inr hs)).1 fun _ => trivial
  | arrived =>
    rw [deeds_note rfl] at hends
    exact hends (hp.earned.other (by simp)) hp.linked
  | @putBack _ b =>
    refine hends ?_ fun _ => trivial
    rcases nack_deeds b id with hdeeds | ⟨t, hdeeds⟩
    · exact hdeeds ▸ hp.earned
    · exact hdeeds ▸ hp.earned.other (by simp)
  | said =>
    rw [deeds_note rfl] at hends
    exact hends (hp.earned.other (by simp)) fun _ => trivial
  | @closed _ b =>
    refine hends ?_ fun _ => trivial
    have hended : ((b.release id).note (.ended id)).deeds id = (b.release id).deeds id :=
      deeds_cons_of_ne (by simp [Note.doer?]) _
    rw [hended]
    rcases release_deeds b id with hdeeds | ⟨t, hdeeds⟩
    · exact hdeeds ▸ hp.earned
    · exact hdeeds ▸ hp.earned.other (by simp)

theorem Acts.honest (h : Acts id deaf p p') (hp : Honest id topic p.stage p.broker) :
    Honest id topic p'.stage p'.broker := by
  induction h with
  | refl => exact hp
  | tail _ hact ih => exact hact.honest ih

end Session

namespace Scene
open Broker Session

variable {s s' s₀ : Scene} {id : ConsumerId} {topic : String}

/-- A session's consumer, while the session runs and when it is over. -/
inductive Served (s : Scene) (id : ConsumerId) (topic : String) : Prop where
  | runs (session : Session) (hs : s.service.sessions.look id = some session)
      (h : Honest id topic session.stage s.broker)
  | gone (hs : s.service.sessions.look id = none) (hc : s.broker.ledger.holder id = none)
      (h : Honest id topic .gone s.broker)

theorem Served.earned (h : s.Served id topic) : Earned id (s.broker.deeds id) := by
  cases h with
  | runs session hs h => exact h.earned
  | gone hs hc h => exact h.earned

/-- Nothing has been done to the consumer, and the session is where it was. -/
theorem Served.spared (h : s.Served id topic) (hspares : Spares id s.broker s'.broker)
    (hn : s.broker.nextId ≤ s'.broker.nextId)
    (hposition : (s'.service.sessions.look id).map (·.position) =
      (s.service.sessions.look id).map (·.position)) : s'.Served id topic := by
  cases h with
  | runs session hs h =>
    rw [hs, Option.map_some, Option.map_eq_some_iff] at hposition
    obtain ⟨session', hs', hp⟩ := hposition
    have hstage : session'.stage = session.stage := by simp only [stage, hp]
    exact .runs session' hs' (hstage ▸ h.spared hspares hn)
  | gone hs hc h =>
    rw [hs, Option.map_none, Option.map_eq_none_iff] at hposition
    exact .gone hposition (hspares.holder.trans hc) (h.spared hspares hn)

/-- A run of the session itself. -/
theorem Served.ran {session : Session} {service : Service} (hr : s.Reachable)
    (hd : s.service.dequeue = some (id, service)) (hs : s.service.sessions.look id = some session)
    (h : Honest id topic session.stage s.broker) :
    Served { s with service := service.run id } id topic := by
  obtain ⟨rest, -, hbroker, hsessions⟩ := Service.dequeue_some hd
  rw [← hsessions] at hs
  have hstart : Honest id topic session.stage { service.broker with span := session.span } := by
    rw [hbroker]
    exact h.spared ⟨rfl, rfl⟩ (Nat.le_refl _)
  have hran := session.run_ran { service.broker with span := session.span } id
  cases hrun : session.run { service.broker with span := session.span } id with
  | mk left b =>
    rw [hrun] at hran
    rw [Service.run_session hs hrun]
    cases hran with
    | paused inlet position hacts =>
      have hb : Honest id topic _ b := hacts.honest hstart
      exact .runs _ (Table.look_put_self ..) (hb.spared ⟨rfl, rfl⟩ (Nat.le_refl _))
    | gone inlet hacts =>
      have hb : Honest id topic .gone b := hacts.honest hstart
      have hended : (service.run id).sessions.look id = none := by
        rw [Service.run_session hs hrun]
        exact Table.look_remove_self ..
      have hgone := hr.run_ended hd hs hended
      rw [Service.run_session hs hrun] at hgone
      exact .gone (Table.look_remove_self ..) (holder_none.mpr hgone)
        (hb.spared ⟨rfl, rfl⟩ (Nat.le_refl _))

theorem Served.passes (hr : s.Reachable) (h : s.Served id topic) (hp : Passes s s') :
    s'.Served id topic := by
  have hn := (hr.passes_reaches hp).steps.nextId_le
  have hlt : id < s.broker.nextId := by
    cases h with
    | runs session hs h => exact h.known
    | gone hs hc h => exact h.known
  cases hp with
  | tick t => exact h.spared ⟨rfl, rfl⟩ hn rfl
  | @act a ha =>
    have hspares : Spares id s.broker (s.perform a).2.broker := by
      refine (s.performed a).spares ha (.inl hlt) ?_
      cases h with
      | runs session hs h =>
        right
        rintro name caller hc rfl
        rw [(hr.orderly.callers name caller hc).1] at hs
        cases hs
      | gone hs hc h => exact .inl hc
    rcases (s.performed a).position id with hposition | ⟨-, hnew, -⟩
    · exact h.spared hspares hn hposition
    · exact absurd hnew (Nat.ne_of_lt hlt)
  | @task who service hd =>
    by_cases hne : id = who
    · rw [← hne] at hd ⊢
      cases h with
      | runs session hs h => exact .ran hr hd hs h
      | gone hs hc h =>
        have hspares := Service.task_spares hd (.inr ⟨hc, hs⟩)
        exact .gone (Service.task_sessions_none hd hs) (hspares.holder.trans hc)
          (h.spared hspares (hne ▸ hn))
    · refine h.spared (Service.task_spares hd (.inl hne)) hn ?_
      rw [Service.task_sessions_other hd hne]

/-- Nobody has done anything yet who is still to come. -/
theorem Reachable.deeds_fresh (h : s.Reachable) (hid : s.broker.nextId ≤ id) :
    s.broker.deeds id = [] := by
  induction h with
  | start flushOnInsert => rfl
  | tick h t ih => exact ih hid
  | @act s h a ha ih =>
    have hle := Nat.le_trans ((s.performed a).moves ha).reaches.steps.nextId_le hid
    have hnone := h.orderly.service.fresh id hle
    rw [((s.performed a).spares ha (.inr hid) (.inl hnone)).deeds, ih hle]
  | @task s who service h hd ih =>
    have hle : s.broker.nextId ≤ id :=
      Nat.le_trans (h.orderly.task hd).reaches.steps.nextId_le hid
    have hnone := h.orderly.service.fresh id hle
    have hsession : s.service.sessions.look id = none := by
      cases hs : s.service.sessions.look id with
      | none => rfl
      | some session =>
        have hlt := (h.orderly.service.stands id session hs).lt h.orderly.service.fresh
        exact absurd hlt (Nat.not_lt.mpr hle)
    exact (Service.task_spares hd (.inr ⟨hnone, hsession⟩)).deeds.trans (ih hle)

/-- A new session has done nothing. -/
theorem Reachable.served_new (h : s.Reachable) {session : Session} (hid : id = s.broker.nextId)
    (hb : s'.broker = (s.broker.subscribe topic).2.enqueue s.broker.nextId)
    (hs : s'.service.sessions.look id = some session) (hp : session.position = .reading) :
    s'.Served id topic := by
  have hdeeds : s'.broker.deeds id = [] := by
    rw [hb, ((silent_subscribe _ topic).trans (silent_enqueue _ _)).deeds id]
    exact h.deeds_fresh (Nat.le_of_eq hid.symm)
  have hholder : s'.broker.ledger.holder id = some (topic, false) := by
    rw [hb, ledger_enqueue, hid]
    exact holder_eq ((consumer?_subscribe ..).trans (if_pos rfl))
  have hstage : session.stage = .reading := by simp only [stage, hp]
  refine .runs session hs ?_
  rw [hstage]
  constructor
  case known =>
    rw [hb, enqueue_nextId, hid]
    exact Nat.lt_succ_self _
  case same_topic =>
    intro t held hh
    rw [hholder] at hh
    cases hh
    rfl
  case earned =>
    rw [hdeeds]
    intro later t earlier he
    simp at he
  case linked =>
    intro hh
    rw [hholder] at hh
    cases hh

theorem Reachable.served (h : s.Reachable) {session : Session}
    (hs : s.service.sessions.look id = some session) : ∃ topic, s.Served id topic := by
  induction h generalizing session with
  | start flushOnInsert => cases hs
  | tick h t ih =>
    obtain ⟨topic, hserved⟩ := ih hs
    exact ⟨topic, hserved.passes h (.tick _ t)⟩
  | @act s h a ha ih =>
    rcases (s.performed a).position id with hposition | ⟨topic, hid, hb, hnew⟩
    · rw [hs, Option.map_some, eq_comm, Option.map_eq_some_iff] at hposition
      obtain ⟨before, hbefore, -⟩ := hposition
      obtain ⟨topic, hserved⟩ := ih hbefore
      exact ⟨topic, hserved.passes h (.act ha)⟩
    · rw [hs, Option.map_some, Option.some.injEq] at hnew
      exact ⟨topic, h.served_new hid hb hs hnew⟩
  | @task s who service h hd ih =>
    cases hbefore : s.service.sessions.look id with
    | none =>
      rw [Service.task_sessions_none hd hbefore] at hs
      cases hs
    | some before =>
      obtain ⟨topic, hserved⟩ := ih hbefore
      exact ⟨topic, hserved.passes h (.task hd)⟩

theorem Served.later (hr : s₀.Reachable) (h : s₀.Served id topic) (hl : Later s₀ s) :
    s.Served id topic := by
  induction hl with
  | refl => exact h
  | tail hl hp ih => exact ih.passes (hr.later hl) hp

/-- What is known of a session's commits. -/
structure Acknowledged (s : Scene) (id : ConsumerId) : Prop where
  /-- Each is of the first message that had not been committed; the session had got it, written it
  to its client, and read an ACK, and in between only unknown commands, to which it wrote errors. -/
  earned : ∀ later topic earlier, s.broker.notes = later ++ .committed id topic :: earlier →
    ∃ payload, Acked id topic payload (deeds id earlier) ∧
      delivery? id earlier = some (commits topic earlier, payload)
  /-- What is stored is what has been published, less the first as many as have been committed. -/
  stored : ∀ topic, (s.broker.store.tree topic).map (fun e => StoredEntry.item e.2) =
    ((published topic s.broker.notes).drop (commits topic s.broker.notes)).map .ok
  /-- An ACK whose commit succeeds removes the entry that the session got last, and no other. -/
  ack : ∀ m, Reaches ⟨s.broker, none⟩ m → ∀ deaf c, m.broker.consumer? id = some c →
    (m.broker.settle id .ack).1 = .ok () →
    ∃ entry, m.broker.Got id c.topic entry ∧
      m.broker.store.tree c.topic = entry :: (obey deaf m.broker id .ack).2.store.tree c.topic ∧
      ∀ topic, topic ≠ c.topic →
        (obey deaf m.broker id .ack).2.store.tree topic = m.broker.store.tree topic
  /-- Nothing else removes any. -/
  harmless : ∀ deaf b, Harmless id deaf b

theorem Reachable.commitsLast (h : s.Reachable) : CommitsLast s.broker.records := by
  obtain ⟨flushOnInsert, hstart⟩ := h.reaches
  refine (Ledger.accounted_start flushOnInsert).commitsLast hstart.steps ?_
  intro later id topic earlier he
  simp [Broker.ledger, Broker.records] at he

theorem Served.acked (h : s.Served id topic) (hr : s.Reachable) {later earlier : History}
    {t : String}
    (he : s.broker.notes = later ++ .committed id t :: earlier) :
    ∃ payload, Acked id t payload (deeds id earlier) ∧
      delivery? id earlier = some (commits t earlier, payload) := by
  have hdeeds : s.broker.deeds id = deeds id later ++ .committed id t :: deeds id earlier := by
    rw [Broker.deeds, he, deeds_append, deeds_cons_self rfl]
  have hrecords : s.broker.records = later.filter Note.isRecord ++
      .committed id t :: earlier.filter Note.isRecord := by
    change s.broker.notes.filter Note.isRecord = _
    rw [he, List.filter_append, List.filter_cons_of_pos rfl]
  obtain ⟨payload, hacked⟩ := h.earned _ _ _ hdeeds
  obtain ⟨payload', hlast⟩ := hr.commitsLast _ _ _ _ hrecords
  rw [delivery?_records, commits_records] at hlast
  -- What was written is what was got last, and that is what went.
  have hsame := hacked.delivery
  rw [delivery?_deeds, hlast, Option.map_some, Option.some.injEq] at hsame
  exact ⟨payload, hacked, hsame ▸ hlast⟩

/-- Whatever others do and whatever fails, from the time a session starts and also when it is over:
it has committed only what its client was sent and has acked. -/
theorem acks_earned (hr : s₀.Reachable) {session : Session}
    (hs : s₀.service.sessions.look id = some session) (hl : Later s₀ s) : s.Acknowledged id := by
  obtain ⟨topic, hserved⟩ := hr.served hs
  have hreachable := hr.later hl
  have haccounted := hreachable.accounted .refl
  constructor
  case earned => exact fun _ _ _ he => (hserved.later hr hl).acked hreachable he
  case stored =>
    intro t
    obtain ⟨stored, he, hp, hc⟩ := haccounted.balanced t
    have hpublished : published t s.broker.notes = committed t s.broker.records ++ stored :=
      (published_records t _).symm.trans hp
    have hcommits : commits t s.broker.notes = (committed t s.broker.records).length :=
      (commits_records t _).symm.trans hc.symm
    rw [hpublished, hcommits, List.drop_left]
    exact he
  case ack => exact fun m hm deaf c hc ha => obey_ack (hreachable.accounted hm) hc ha deaf
  case harmless => exact fun deaf b => Session.harmless id deaf b

/-- A session has started. -/
def started : Scene := after [⟨.session "t" "s" false, false⟩]

/-- It gets a message and writes it, answers a command that it does not know, and reads an ACK. -/
def shown : List Step :=
  [⟨.publish "t" [1], false⟩, ⟨.command "s" .init, false⟩, ⟨.command "s" (.unknown "x"), false⟩,
   ⟨.subscribe "t" "c", false⟩, ⟨.next "c" false, false⟩, ⟨.command "s" .ack, false⟩]

theorem shown_acknowledged :
    (started.service.sessions.look 0).isSome = true ∧
    (shown.foldl (fun s t => (s.step t).2) started).Acknowledged 0 ∧
    commits "t" (shown.foldl (fun s t => (s.step t).2) started).broker.notes = 1 := by
  have hsome : (started.service.sessions.look 0).isSome = true := by decide +kernel
  obtain ⟨session, hs⟩ := Option.isSome_iff_exists.mp hsome
  exact ⟨hsome, acks_earned (reachable_after (by decide)) hs (later_steps (by decide)),
    by decide +kernel⟩

end Scene

end TopicQueue

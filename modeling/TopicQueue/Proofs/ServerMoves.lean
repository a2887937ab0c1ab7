import TopicQueue.Http.Server.Step
import TopicQueue.Proofs.Accounts
import TopicQueue.Proofs.Drains
import TopicQueue.Proofs.Registry
import TopicQueue.Proofs.Replies

namespace TopicQueue.Http

inductive Move where
  /-- Somebody outside does something. -/
  | act (action : Action)
  /-- The first task runs, if there is one. -/
  | turn
  deriving DecidableEq, Repr

/-- The request that an action is about. -/
def Action.name? : Action → Option String
  | .request name .. | .send name _ | .fail name | .close name | .drop name => some name
  | .shutdown | .closeStore | .fault .. | .idle => none

namespace Server
open Broker

def turn (s : Server) : Server :=
  match s.service.dequeue with
  | none => s
  | some (id, service) => run { s with service } id

/-- The first task is off the queue. -/
def taken (s : Server) : Server := s.setBroker { s.broker with ready := s.broker.ready.tail }

def move (s : Server) : Move → Server
  | .act action => (s.perform action).2
  | .turn => s.turn

def moves (s : Server) (ms : List Move) : Server := ms.foldl move s

/-- The request whose task it is. -/
def owner? (s : Server) (task : Nat) : Option String :=
  (s.requests.find? (·.2.task == task)).map (·.1)

/-- The request for which a move is made. -/
def mover? (s : Server) : Move → Option String
  | .act action => action.name?
  | .turn => s.broker.ready.head?.bind s.owner?

variable {s s' s'' : Server} {name : String} {r r' : Request} {task : Nat} {who : Option String}

theorem moves_append (s : Server) (ms ms' : List Move) :
    s.moves (ms ++ ms') = (s.moves ms).moves ms' := List.foldl_append

/-- Each request has a task of its own, whose number is not given again, and the store keeps what
is put into it. -/
structure Orderly (s : Server) : Prop where
  names : (s.requests.map (·.1)).Nodup
  tasks : ∀ name r name' r', s.requests.look name = some r → s.requests.look name' = some r' →
    r.task = r'.task → name = name'
  known : ∀ name r, s.requests.look name = some r → r.task < s.broker.nextId
  replied : ∀ p ∈ s.broker.replies, p.1 < s.broker.nextId
  durable : s.broker.ledger.Durable

theorem Orderly.find (hs : s.Orderly) (h : s.requests.look name = some r) :
    s.requests.find? (·.2.task == r.task) = some (name, r) := by
  cases hf : s.requests.find? (·.2.task == r.task) with
  | none =>
    have hnot := List.find?_eq_none.mp hf (name, r) (Table.mem_of_look h)
    simp at hnot
  | some p =>
    obtain ⟨other, r'⟩ := p
    have hlook := (Table.mem_iff_look hs.names).mp (List.mem_of_find?_eq_some hf)
    have htask : r'.task = r.task := by simpa using List.find?_some hf
    have hname := hs.tasks _ _ _ _ hlook h htask
    rw [hname, h] at hlook
    cases hlook
    rw [hname]

theorem Orderly.found (hs : s.Orderly) (h : s.requests.find? (·.2.task == task) = some (name, r)) :
    s.requests.look name = some r ∧ r.task = task :=
  ⟨(Table.mem_iff_look hs.names).mp (List.mem_of_find?_eq_some h), by simpa using List.find?_some h⟩

/-- The turn is that of a request whose task comes first. -/
theorem Orderly.mover_turn (hs : s.Orderly) (h : s.requests.look name = some r) :
    s.mover? .turn = some name ↔ s.broker.ready.head? = some r.task := by
  constructor
  · intro hmover
    obtain ⟨task, hhead, howner⟩ := Option.bind_eq_some_iff.mp hmover
    obtain ⟨⟨other, r'⟩, hfind, rfl⟩ := Option.map_eq_some_iff.mp howner
    obtain ⟨hlook, rfl⟩ := hs.found hfind
    rw [h] at hlook
    cases hlook
    exact hhead
  · intro hhead
    simp [mover?, hhead, owner?, hs.find h]

/-- What a request keeps while others move. -/
structure Keeps (name : String) (r : Request) (s s' : Server) : Prop where
  look : s'.requests.look name = some r
  ready : r.task ∈ s.broker.ready → r.task ∈ s'.broker.ready
  replies : s'.broker.repliesTo r.task = s.broker.repliesTo r.task

/-- What a move that is made for a request, or for none, does to a server. -/
structure Moved (who : Option String) (s s' : Server) : Prop where
  orderly : s'.Orderly
  nextId : s.broker.nextId ≤ s'.broker.nextId
  maxPayload : s'.maxPayload = s.maxPayload
  others : ∀ name r, some name ≠ who → s.requests.look name = some r → Keeps name r s s'

theorem Moved.refl (hs : s.Orderly) : Moved who s s :=
  ⟨hs, Nat.le_refl _, rfl, fun _ _ _ h => ⟨h, id, rfl⟩⟩

theorem Moved.trans (h : Moved who s s') (h' : Moved who s' s'') : Moved who s s'' where
  orderly := h'.orderly
  nextId := Nat.le_trans h.nextId h'.nextId
  maxPayload := h'.maxPayload.trans h.maxPayload
  others name r hne hr := by
    have hfirst := h.others name r hne hr
    have hsecond := h'.others name r hne hfirst.look
    exact ⟨hsecond.look, fun hm => hsecond.ready (hfirst.ready hm),
      hsecond.replies.trans hfirst.replies⟩

theorem Moved.any (h : Moved none s s') : Moved who s s' :=
  ⟨h.orderly, h.nextId, h.maxPayload, fun name r _ hr => h.others name r (by simp) hr⟩

/-- Whoever serves a consumer has no request's task. -/
theorem Orderly.tends {id : ConsumerId} (hs : s.Orderly) (h : Tends id s.broker s'.broker)
    (hid : ∀ name r, s.requests.look name = some r → r.task ≠ id)
    (hrequests : s'.requests = s.requests) (hmax : s'.maxPayload = s.maxPayload) :
    Moved none s s' where
  orderly := by
    have hnext : s.broker.nextId ≤ s'.broker.nextId := h.steps.nextId_le
    refine ⟨hrequests ▸ hs.names, hrequests ▸ hs.tasks, ?_, ?_, hs.durable.steps h.steps⟩
    · intro name r hr
      rw [hrequests] at hr
      exact Nat.lt_of_lt_of_le (hs.known name r hr) hnext
    · intro p hp
      rw [h.replies] at hp
      exact Nat.lt_of_lt_of_le (hs.replied p hp) hnext
  nextId := h.steps.nextId_le
  maxPayload := hmax
  others name r _ hr := by
    refine ⟨hrequests ▸ hr, h.ready r.task (hid name r hr), ?_⟩
    simp only [repliesTo, h.replies]

/-- No request has the task that comes next. -/
theorem Orderly.next_free (hs : s.Orderly) :
    ∀ name r, s.requests.look name = some r → r.task ≠ s.broker.nextId :=
  fun name r hr => Nat.ne_of_lt (hs.known name r hr)

theorem Orderly.serve (hs : s.Orderly) {service : Service}
    (h : Tends s.broker.nextId s.broker service.broker) : Moved none s { s with service } :=
  hs.tends h hs.next_free rfl rfl

theorem Orderly.setBroker (hs : s.Orderly) {b : Broker} (h : Tends s.broker.nextId s.broker b) :
    Moved none s (s.setBroker b) :=
  hs.serve h

theorem Orderly.note (hs : s.Orderly) {n : Note} (hn : n.isRecord = false)
    (hr : n.reply? = none) : Moved none s (s.note n) :=
  hs.setBroker (tends_note hn hr)

theorem Orderly.setSpan (hs : s.Orderly) (span : Option RequestSpan) :
    Moved none s (s.setSpan span) :=
  hs.setBroker ⟨.refl, fun _ _ hm => hm, rfl⟩

/-- A request goes on, with the same task. -/
theorem Orderly.put (hs : s.Orderly) (h : s.requests.look name = some r) (r' : Request)
    (htask : r'.task = r.task) :
    Moved (some name) s { s with requests := s.requests.put name r' } where
  orderly := by
    -- Whoever is in the table afterwards was there before, with the same task.
    have hwas : ∀ other q, (s.requests.put name r').look other = some q →
        ∃ p, s.requests.look other = some p ∧ p.task = q.task := by
      intro other q hq
      rw [Table.look_put] at hq
      split at hq
      · rename_i ho
        cases hq
        exact ⟨r, ho ▸ h, htask.symm⟩
      · exact ⟨q, hq, rfl⟩
    refine ⟨Table.nodup_put hs.names _ _, ?_, ?_, hs.replied, hs.durable⟩
    · intro n q n' q' hq hq' hsame
      obtain ⟨p, hp, hpq⟩ := hwas n q hq
      obtain ⟨p', hp', hpq'⟩ := hwas n' q' hq'
      exact hs.tasks n p n' p' hp hp' (by rw [hpq, hpq', hsame])
    · intro n q hq
      obtain ⟨p, hp, hpq⟩ := hwas n q hq
      exact hpq ▸ hs.known n p hp
  nextId := Nat.le_refl _
  maxPayload := rfl
  others other q hne hq := by
    have hother : other ≠ name := fun ho => hne (ho ▸ rfl)
    exact ⟨(Table.look_put_of_ne _ _ hother).trans hq, id, rfl⟩

theorem repliesTo_answered_of_ne {request : Nat} (b : Broker) (response : Response)
    (h : request ≠ task) :
    (b.note (.answered request response)).repliesTo task = b.repliesTo task := by
  simp [repliesTo, h]

theorem Orderly.answered (hs : s.Orderly) (h : s.requests.look name = some r)
    (response : Response) : Moved (some name) s (s.note (.answered r.task response)) where
  orderly := by
    refine ⟨hs.names, hs.tasks, hs.known, ?_, ?_⟩
    · intro p hp
      have hcons : (s.note (.answered r.task response)).broker.replies =
          (r.task, response) :: s.broker.replies := replies_answered s.broker r.task response
      rw [hcons] at hp
      rcases List.mem_cons.mp hp with rfl | hp
      · exact hs.known name r h
      · exact hs.replied p hp
    · exact ledger_note (b := s.broker) (n := .answered r.task response) rfl ▸ hs.durable
  nextId := Nat.le_refl _
  maxPayload := rfl
  others other q hne hq := by
    refine ⟨hq, id, repliesTo_answered_of_ne s.broker response ?_⟩
    intro hsame
    exact hne (congrArg some (hs.tasks _ _ _ _ hq h hsame.symm))

theorem Orderly.answer (hs : s.Orderly) (h : s.requests.look name = some r)
    (response : Response) : Moved (some name) s (s.answer name r response) := by
  have hnoted := hs.answered h response
  exact hnoted.trans (hnoted.orderly.put h _ rfl)

theorem Orderly.publish (hs : s.Orderly) (h : s.requests.look name = some r) (topic : String) :
    Moved (some name) s (s.publish name r topic) := by
  unfold Server.publish
  split
  · rename_i reason _
    have hnoted := hs.note (n := .bodyUnreadable reason) rfl rfl
    exact hnoted.any.trans (hnoted.orderly.answer h _)
  · rename_i payload _
    split
    · exact hs.put h _ rfl
    · have hpublished := hs.setBroker (tends_publish s.broker topic payload)
      split
      · rename_i e b he
        rw [he] at hpublished
        have hnoted := hpublished.orderly.note (n := .publishFailed e) rfl rfl
        exact (hpublished.trans hnoted).any.trans (hnoted.orderly.answer h _)
      · rename_i b he
        rw [he] at hpublished
        have hnoted := hpublished.orderly.note (n := .published payload.length) rfl rfl
        exact (hpublished.trans hnoted).any.trans (hnoted.orderly.answer h _)

theorem Orderly.subscribe (hs : s.Orderly) (h : s.requests.look name = some r) (topic : String)
    (span : RequestSpan) : Moved (some name) s (s.subscribe name r topic span) := by
  unfold Server.subscribe
  have hopened := s.service.tends_openSession s.broker.nextId topic
    (.chunks [] r.body !r.bodyOpen) (some span)
  generalize s.service.openSession topic (.chunks [] r.body !r.bodyOpen) (some span) = opened
    at hopened
  obtain ⟨id, service⟩ := opened
  have hcancelled : Tends s.broker.nextId service.broker
      (if s.stopped then service.cancelSession id else service).broker := by
    split
    · exact service.tends_cancelSession _ id
    · exact .refl _ _
  dsimp only at hopened ⊢
  generalize (if s.stopped then service.cancelSession id else service) = service' at hcancelled
  have hput := hs.put h { r with stage := .streaming id, body := [] } rfl
  have htends := (hopened.trans hcancelled).trans (tends_note (n := .streamed r.task id) rfl rfl)
  refine hput.trans (Moved.any ?_)
  exact hput.orderly.tends htends hput.orderly.next_free rfl rfl

theorem Orderly.handle (hs : s.Orderly) (h : s.requests.look name = some r) :
    Moved (some name) s (s.handle name r) := by
  unfold Server.handle
  split
  · exact hs.answer h _
  · exact hs.answer h _
  · rename_i handler _
    have hspanned := hs.setSpan (some ⟨handler.text, none⟩)
    have hnoted := hspanned.orderly.note (n := .invalidTopic) rfl rfl
    have hcleared := hnoted.orderly.setSpan none
    exact ((hspanned.trans hnoted).trans hcleared).any.trans (hcleared.orderly.answer h _)
  · rename_i topic _
    have hspanned := hs.setSpan (some ⟨Handler.publish.text, some topic⟩)
    have hnoted := hspanned.orderly.note (n := .publishing) rfl rfl
    have hpublished := (hspanned.trans hnoted).any.trans (hnoted.orderly.publish h topic)
    exact hpublished.trans (hpublished.orderly.setSpan none).any
  · rename_i topic _
    have hspanned := hs.setSpan (some ⟨Handler.subscribe.text, some topic⟩)
    have hnoted := hspanned.orderly.note (n := .subscribing) rfl rfl
    have hcleared := hnoted.orderly.setSpan none
    exact ((hspanned.trans hnoted).trans hcleared).any.trans (hcleared.orderly.subscribe h topic _)

theorem Orderly.runRequest (hs : s.Orderly) (h : s.requests.look name = some r) :
    Moved (some name) s (s.runRequest name r) := by
  unfold Server.runRequest
  split
  · exact hs.handle h
  · rename_i topic _
    have hspanned := hs.setSpan (some ⟨Handler.publish.text, some topic⟩)
    have hpublished := hspanned.any.trans (hspanned.orderly.publish h topic)
    exact hpublished.trans (hpublished.orderly.setSpan none).any
  · exact .refl hs
  · exact .refl hs

theorem Orderly.run (hs : s.Orderly) (task : Nat) : Moved (s.owner? task) s (s.run task) := by
  unfold Server.run owner?
  split
  · rename_i name r hf
    rw [hf]
    exact hs.runRequest (hs.found hf).1
  · rename_i hf
    rw [hf]
    refine hs.tends (s.service.tends_run task) ?_ rfl rfl
    intro name r hr hsame
    have hnot := List.find?_eq_none.mp hf (name, r) (Table.mem_of_look hr)
    simp [hsame] at hnot

/-- No others' tasks are taken off the queue. -/
theorem Orderly.unready (hs : s.Orderly) {ready : List Nat}
    (h : ∀ name r, some name ≠ who → s.requests.look name = some r →
      r.task ∈ s.broker.ready → r.task ∈ ready) :
    Moved who s (s.setBroker { s.broker with ready }) :=
  ⟨⟨hs.names, hs.tasks, hs.known, hs.replied, hs.durable⟩, Nat.le_refl _, rfl,
    fun name r hne hr => ⟨hr, h name r hne hr, rfl⟩⟩

theorem turn_nil (h : s.broker.ready = []) : s.turn = s := by
  have hnone : s.service.dequeue = none := Service.dequeue_none h
  simp only [turn, hnone]

theorem dequeue_head (h : s.broker.ready.head? = some task) :
    s.service.dequeue = some (task, s.taken.service) := by
  obtain ⟨rest, hready⟩ := List.head?_eq_some_iff.mp h
  have hservice : s.service.broker.ready = task :: rest := hready
  simp only [Service.dequeue, taken, hready, hservice]
  rfl

theorem turn_head (h : s.broker.ready.head? = some task) : s.turn = s.taken.run task := by
  simp only [turn, dequeue_head h]
  rfl

/-- The first task is nobody's but its request's. -/
theorem Orderly.take (hs : s.Orderly) (h : s.broker.ready.head? = some task) :
    Moved (s.owner? task) s s.taken := by
  obtain ⟨rest, hready⟩ := List.head?_eq_some_iff.mp h
  refine hs.unready fun name r hne hr hm => ?_
  rw [hready] at hm ⊢
  rcases List.mem_cons.mp hm with rfl | hm
  · exact absurd (by rw [owner?, hs.find hr, Option.map_some]) hne
  · exact hm

theorem Orderly.turn (hs : s.Orderly) : Moved (s.mover? .turn) s s.turn := by
  unfold mover?
  cases hhead : s.broker.ready.head? with
  | none =>
    rw [turn_nil (List.head?_eq_none_iff.mp hhead)]
    exact .refl hs
  | some task =>
    have htaken := hs.take hhead
    rw [turn_head hhead]
    exact htaken.trans (htaken.orderly.run task)

/-- A request that will not be answered has no task any more. -/
theorem Orderly.withdraw (hs : s.Orderly) (h : s.requests.look name = some r) :
    Moved (some name) s (s.setBroker { s.broker with
      ready := s.broker.ready.filter (· != r.task) }) := by
  refine hs.unready fun other q hne hq hm => List.mem_filter.mpr ⟨hm, ?_⟩
  have hother : q.task ≠ r.task := fun hsame => hne (congrArg some (hs.tasks _ _ _ _ hq h hsame))
  simpa using hother

theorem Orderly.leave (hs : s.Orderly) (name : String) : Moved (some name) s (s.leave name) := by
  unfold Server.leave
  split
  · exact .refl hs
  · rename_i r h
    have hput := hs.put h { r with stage := .done, attended := false } rfl
    have hwithdrawn := hput.orderly.withdraw (Table.look_put_self ..)
    dsimp only
    split
    · exact hput.trans hwithdrawn
    · exact hput.trans hwithdrawn
    · rename_i id _
      have htends := (s.service.deafen id).tends_cancelSession s.broker.nextId id
      rw [Service.deafen_broker] at htends
      exact hput.trans (hput.orderly.serve htends).any
    · exact hput

theorem Orderly.enqueue (hs : s.Orderly) (task : Nat) : Moved none s (s.enqueue task) :=
  hs.setBroker (tends_enqueue s.broker task)

theorem Orderly.feed (hs : s.Orderly) (id : ConsumerId) (change : Inlet → Inlet) :
    Moved none s { s with service := s.service.feed id change } :=
  hs.serve (s.service.tends_feed _ id change)

theorem Orderly.push (hs : s.Orderly) (name : String) (chunk : Chunk) :
    Moved (some name) s (s.push name chunk).2 := by
  unfold Server.push
  split
  · exact .refl hs
  · rename_i r h
    split
    · exact .refl hs
    · have hput := hs.put h { r with body := r.body ++ [chunk] } rfl
      split
      · exact hput.trans (hput.orderly.enqueue r.task).any
      · exact hput.trans (hput.orderly.enqueue r.task).any
      · split
        · exact .refl hs
        · exact (hs.feed _ _).any
      · exact .refl hs

theorem Orderly.close (hs : s.Orderly) (name : String) : Moved (some name) s (s.close name).2 := by
  unfold Server.close
  split
  · exact .refl hs
  · rename_i r h
    split
    · exact .refl hs
    · have hput := hs.put h { r with bodyOpen := false } rfl
      dsimp only
      split
      · exact hput.trans (hput.orderly.enqueue r.task).any
      · exact hput.trans (hput.orderly.enqueue r.task).any
      · exact hput.trans (hput.orderly.feed _ _).any
      · exact hput

/-- A request of a new task. -/
theorem Orderly.enter (hs : s.Orderly) (name : String) (h : r.task = s.broker.nextId) :
    Moved (some name) s { s.setBroker { s.broker with nextId := r.task + 1 } with
      requests := s.requests.put name r } where
  orderly := by
    have hlook : ∀ other q, (s.requests.put name r).look other = some q →
        (other = name ∧ q = r) ∨ (s.requests.look other = some q ∧ q.task < r.task) := by
      intro other q hq
      rw [Table.look_put] at hq
      split at hq
      · rename_i ho
        cases hq
        exact .inl ⟨ho, rfl⟩
      · exact .inr ⟨hq, h ▸ hs.known other q hq⟩
    refine ⟨Table.nodup_put hs.names _ _, ?_, ?_, ?_, ?_⟩
    · intro n q n' q' hq hq' hsame
      rcases hlook n q hq with ⟨rfl, rfl⟩ | ⟨hq, hlt⟩
      · rcases hlook n' q' hq' with ⟨rfl, rfl⟩ | ⟨hq', hlt'⟩
        · rfl
        · exact absurd hsame (Nat.ne_of_gt hlt')
      · rcases hlook n' q' hq' with ⟨rfl, rfl⟩ | ⟨hq', hlt'⟩
        · exact absurd hsame (Nat.ne_of_lt hlt)
        · exact hs.tasks n q n' q' hq hq' hsame
    · intro n q hq
      rcases hlook n q hq with ⟨rfl, rfl⟩ | ⟨hq, hlt⟩
      · exact Nat.lt_succ_self _
      · exact Nat.lt_succ_of_lt hlt
    · intro p hp
      exact Nat.lt_succ_of_lt (h ▸ hs.replied p hp)
    · exact ⟨hs.durable.sound, hs.durable.clock⟩
  nextId := h ▸ Nat.le_succ _
  maxPayload := rfl
  others other q hne hq := by
    have hother : other ≠ name := fun ho => hne (ho ▸ rfl)
    exact ⟨(Table.look_put_of_ne _ _ hother).trans hq, id, rfl⟩

theorem Orderly.arrive (hs : s.Orderly) (name : String) (route : Route) (body : List Bytes)
    (bodyOpen : Bool) : Moved (some name) s (s.arrive name route body bodyOpen) := by
  have hleft := hs.leave name
  have hentered := hleft.orderly.enter name
    (r := { task := (s.leave name).broker.nextId, route, body := body.map .data, bodyOpen }) rfl
  exact (hleft.trans hentered).trans (hentered.orderly.enqueue _).any

theorem tends_cancelSessions {id : ConsumerId} (children : List ConsumerId) (service : Service) :
    Tends id service.broker (children.foldl Service.cancelSession service).broker := by
  induction children generalizing service with
  | nil => exact .refl id _
  | cons child children ih => exact (service.tends_cancelSession id child).trans (ih _)

theorem Orderly.shutdown (hs : s.Orderly) : Moved none s s.shutdown :=
  hs.tends (tends_cancelSessions s.children.reverse s.service) hs.next_free rfl rfl

theorem Orderly.perform (hs : s.Orderly) (action : Action) :
    Moved action.name? s (s.perform action).2 := by
  cases action with
  | request name verb target body bodyOpen =>
    simp only [Server.perform]
    split
    · exact .refl hs
    · exact hs.arrive name _ body bodyOpen
  | send name octets => exact hs.push name _
  | fail name => exact hs.push name _
  | close name => exact hs.close name
  | drop name => exact hs.leave name
  | shutdown => exact hs.shutdown
  | closeStore => exact hs.setBroker (tends_shutdown s.broker)
  | fault call fault => exact hs.setBroker ⟨.refl, fun _ _ hm => hm, rfl⟩
  | idle => exact .refl hs

/-- A move that is made for one request does nothing to the others. -/
theorem Orderly.move (hs : s.Orderly) (m : Move) : Moved (s.mover? m) s (s.move m) := by
  cases m with
  | act action => exact hs.perform action
  | turn => exact hs.turn

theorem Orderly.moves (hs : s.Orderly) (ms : List Move) : (s.moves ms).Orderly := by
  induction ms generalizing s with
  | nil => exact hs
  | cons m ms ih => exact ih (hs.move m).orderly

theorem Orderly.moves_maxPayload (hs : s.Orderly) (ms : List Move) :
    (s.moves ms).maxPayload = s.maxPayload := by
  induction ms generalizing s with
  | nil => rfl
  | cons m ms ih => exact (ih (hs.move m).orderly).trans (hs.move m).maxPayload

/-- Who leaves takes no number with it. -/
theorem leave_nextId (s : Server) (name : String) :
    (s.leave name).broker.nextId = s.broker.nextId := by
  have hcancel : ∀ (service : Service) (id : ConsumerId),
      (service.cancelSession id).broker.nextId = service.broker.nextId := by
    intro service id
    unfold Service.cancelSession
    split
    · rfl
    · have hsteady : Steady id service.broker (service.broker.cancel id) := steady_cancel _ id
      have hnext := hsteady.nextId
      dsimp only
      split
      · rw [enqueue_nextId, hnext]
      · exact hnext
  unfold Server.leave
  split
  · rfl
  · dsimp only
    split
    · rfl
    · rfl
    · rename_i id _
      exact (hcancel _ id).trans (congrArg Broker.nextId (s.service.deafen_broker id))
    · rfl

/-- A server that has just been started, on any store and with any faults armed. -/
theorem orderly_start (store : Store) (hs : store.Sound) (faults : Faults) (maxPayload : Nat) :
    Orderly { service := { broker := { store, faults } }, maxPayload } where
  names := List.nodup_nil
  tasks _ _ _ _ h := by cases h
  known _ _ h := by cases h
  replied _ h := by cases h
  durable := ⟨hs, 0, rfl⟩

end Server

end TopicQueue.Http

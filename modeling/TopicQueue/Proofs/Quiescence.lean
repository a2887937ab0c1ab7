import TopicQueue.Proofs.Drains
import TopicQueue.Proofs.Errands

namespace TopicQueue

namespace Broker

/-- How often the store has been asked for an entry. -/
def fetches (b : Broker) : Nat := b.errands.countP (·.call = .fetchNext)

/-- A call for a message, look by look. Each look uses up a kept wake; if there was one and nothing
has been found, it stands for one more look. -/
inductive Looks (id : ConsumerId) : Nat → Broker → Option (Except BrokerError Bytes) × Broker → Prop
  where
  | returns {b b' c result} (hc : b.consumer? id = some c)
      (h : b.look id c = (some result, b')) : Looks id 1 b (some result, b')
  | sleeps {b b' c} (hc : b.consumer? id = some c) (h : b.look id c = (none, b'))
      (hp : c.permit = false) : Looks id 1 b (none, b'.park id)
  | again {b b' c n r} (hc : b.consumer? id = some c) (h : b.look id c = (none, b'))
      (hp : c.permit = true) (hr : Looks id n (b'.note (.woken id c.topic)) r) :
      Looks id (n + 1) b r

variable {b b' : Broker} {id : ConsumerId} {c : Consumer} {topic : String} {n : Nat}
  {r : Option (Except BrokerError Bytes) × Broker}

/-- A look that found nothing leaves the flag up and no wake kept. -/
theorem consumer?_looked (h : b.look id c = (none, b')) : b'.consumer? id = some c.alert := by
  have hsought := look_sought b id c
  rw [h] at hsought
  cases hsought with
  | nothing f j => exact consumer?_became_self ..

theorem look_alert (b : Broker) (id : ConsumerId) (c : Consumer) :
    b.look id c.alert = b.look id c := rfl

/-- Where no wake is kept, one look decides. -/
theorem looks_once (hc : b.consumer? id = some c) (hp : c.permit = false) : Looks id 1 b
    (match b.look id c with
      | (some result, b') => (some result, b')
      | (none, b') => (none, b'.park id)) := by
  split
  · rename_i result b' he
    exact .returns hc he
  · rename_i b' he
    exact .sleeps hc he hp

theorem looks_seek (hc : b.consumer? id = some c) : ∃ n, Looks id n b (b.seek id) := by
  unfold seek
  rw [hc]
  dsimp only
  split
  · rename_i result b' he
    exact ⟨1, .returns hc he⟩
  · rename_i b' he
    cases hp : c.permit with
    | false => exact ⟨1, .sleeps hc he hp⟩
    | true =>
      have hlooked : b'.consumer? id = some c.alert := consumer?_looked he
      have honce := looks_once (b := b'.note (.woken id c.topic)) hlooked rfl
      rw [look_alert] at honce
      exact ⟨2, .again hc he hp honce⟩

/-- The second look is the last, and there is one way only for the looks to go. -/
theorem Looks.ends (h : Looks id n b r) : n ≤ 2 ∧ r = b.seek id := by
  cases h with
  | returns hc h => exact ⟨by omega, by simp only [seek, hc, h]⟩
  | sleeps hc h hp => exact ⟨by omega, by simp [seek, hc, h, hp]⟩
  | again hc h hp hr =>
    have hlooked := consumer?_looked h
    cases hr with
    | returns hc' h' =>
      cases hc'.symm.trans hlooked
      rw [look_alert] at h'
      exact ⟨by omega, by simp [seek, hc, h, hp, h']⟩
    | sleeps hc' h' =>
      cases hc'.symm.trans hlooked
      rw [look_alert] at h'
      exact ⟨by omega, by simp [seek, hc, h, hp, h']⟩
    | again hc' h' hp' =>
      cases hc'.symm.trans hlooked
      cases hp'

theorem Fetches.fetches_le (h : Fetches topic n b b') : b'.fetches ≤ b.fetches + n := by
  obtain ⟨new, he, hlength, -⟩ := h
  have hcount := List.countP_le_length (p := fun e : Errand => decide (e.call = .fetchNext)) (l := new)
  rw [fetches, he, List.countP_append, fetches]
  omega

theorem fetches_of_errands (h : b'.errands = b.errands) : b'.fetches = b.fetches := by
  rw [fetches, h, fetches]

theorem fetches_begin_le (b : Broker) (id : ConsumerId) :
    (b.begin id).2.fetches ≤ b.fetches + 2 := by
  cases hc : b.consumer? id with
  | none => simp [begin, hc]
  | some c => exact (fetches_begin hc).fetches_le

theorem fetches_resume_le (b : Broker) (id : ConsumerId) :
    (b.resume id).2.fetches ≤ b.fetches + 2 := by
  cases hc : b.consumer? id with
  | none => simp [resume, hc]
  | some c => exact (fetches_resume hc).fetches_le

theorem fetches_settle (b : Broker) (id : ConsumerId) (v : Verdict) :
    (b.settle id v).2.fetches = b.fetches := by
  cases hc : b.consumer? id with
  | none => simp [settle, hc]
  | some c =>
    cases hh : c.holding with
    | false => rw [settle_idle hc hh]
    | true =>
      obtain ⟨failure, he⟩ := errands_settle hc hh v
      rw [fetches, he, List.countP_cons_of_neg (by cases v <;> simp [Verdict.call]), fetches]

theorem fetches_release (b : Broker) (id : ConsumerId) : (b.release id).fetches = b.fetches := by
  cases hc : b.consumer? id with
  | none => simp [release, hc]
  | some c =>
    cases hh : c.holding with
    | false =>
      rw [release_idle hc hh]
      exact fetches_of_errands (errands_forget b id c.topic)
    | true =>
      have hsettle := fetches_settle b id .nack
      rw [release_holding hc hh, fetches_of_errands (errands_forget _ id c.topic)]
      split <;>
      · rename_i he
        rw [he] at hsettle
        rw [fetches_of_errands (errands_note rfl _), hsettle]

theorem fetches_runNext_le (b : Broker) (id : ConsumerId) :
    (b.runNext id).fetches ≤ b.fetches + 2 := by
  rcases b.runNext_cases id with he | ⟨b', hb', he⟩
  · rw [he]
    omega
  · have hcalled : b'.fetches ≤ b.fetches + 2 := by
      rcases hb' with rfl | rfl
      · exact fetches_begin_le b id
      · exact fetches_resume_le b id
    rcases he with he | ⟨a, he⟩
    · rwa [he]
    · rwa [he, fetches_of_errands (errands_note rfl b')]

/-- What one call for a message does before it returns or sleeps. -/
structure NextEnds (b : Broker) (id : ConsumerId) : Prop where
  /-- Its looks are one or two, and come to what `seek` gives. -/
  comes : ∃ n, Looks id n b (b.seek id)
  looks : ∀ n r, Looks id n b r → n ≤ 2 ∧ r = b.seek id
  begun : (b.begin id).2.fetches ≤ b.fetches + 2
  resumed : (b.resume id).2.fetches ≤ b.fetches + 2
  /-- It has returned, or its consumer is asleep. -/
  rests : Rests id (b.seek id)

theorem next_ends (hc : b.consumer? id = some c) : b.NextEnds id where
  comes := looks_seek hc
  looks _ _ h := h.ends
  begun := fetches_begin_le b id
  resumed := fetches_resume_le b id
  rests := (seek_sought hc).rests

end Broker

namespace Session
open Broker

variable {s : Session} {b b' : Broker} {id : ConsumerId} {deaf : Bool}

-- Outside its calls for a message, a session does not ask for entries.

theorem fetches_write (deaf : Bool) (b : Broker) (id : ConsumerId) (f : Frame) :
    (write deaf b id f).2.fetches = b.fetches := by
  unfold write
  split <;> exact fetches_of_errands (errands_note rfl b)

theorem fetches_putBack (b : Broker) (id : ConsumerId) : (putBack b id).fetches = b.fetches := by
  have hsettle := fetches_settle b id .nack
  unfold putBack
  split
  · rename_i b' he
    rw [he] at hsettle
    exact (fetches_of_errands (errands_note rfl b')).trans hsettle
  · rename_i b' he
    rwa [he] at hsettle
  · rename_i e b' _ he
    rw [he] at hsettle
    exact (fetches_of_errands (errands_note rfl b')).trans hsettle

theorem fetches_answer (deaf : Bool) (b : Broker) (id : ConsumerId) (f : Frame) :
    (answer deaf b id f).2.fetches = b.fetches := by
  have hwrite := fetches_write deaf b id f
  unfold answer
  split
  · rename_i b' he
    rwa [he] at hwrite
  · rename_i b' he
    rw [he] at hwrite
    exact (fetches_putBack b' id).trans hwrite

theorem fetches_conclude (deaf : Bool) (b : Broker) (id : ConsumerId) (command : Command)
    (result : Except BrokerError Bytes) :
    (conclude deaf b id command result).2.fetches = b.fetches := by
  cases result with
  | ok payload =>
    have hanswer := fetches_answer deaf b id (.message payload)
    simp only [conclude]
    split
    · rename_i b' he
      rw [he] at hanswer
      exact (fetches_of_errands (errands_note rfl b')).trans hanswer
    · rename_i b' he
      rwa [he] at hanswer
  | error e =>
    cases e with
    | cancelled => exact fetches_of_errands (errands_note rfl b)
    | store _ | nothingClaimed | alreadyHolding =>
      exact (fetches_write deaf _ id _).trans (fetches_of_errands (errands_note rfl b))

theorem fetches_disconnect (b : Broker) (id : ConsumerId) (error : Option ReadError) :
    (disconnect b id error).fetches = b.fetches :=
  (fetches_putBack _ id).trans (fetches_of_errands (errands_note rfl b))

theorem fetches_refuse (deaf : Bool) (b : Broker) (id : ConsumerId) (error : ReadError) :
    (refuse deaf b id error).fetches = b.fetches := by
  unfold refuse
  split
  · exact fetches_disconnect b id (some error)
  · exact (fetches_write deaf _ id _).trans (fetches_of_errands (errands_note rfl b))

theorem fetches_close (b : Broker) (id : ConsumerId) : (close b id).fetches = b.fetches := by
  have hrelease := fetches_release (b.note (.finished id)) id
  rw [fetches_of_errands (errands_note rfl b)] at hrelease
  exact (fetches_of_errands (errands_note rfl _)).trans hrelease

theorem fetches_demand_le (deaf : Bool) (b : Broker) (id : ConsumerId) (command : Command) :
    (demand deaf b id command).2.fetches ≤ b.fetches + 2 := by
  have hbegin := fetches_begin_le b id
  unfold demand
  split
  · rename_i b' he
    rwa [he] at hbegin
  · rename_i result b' he
    rw [he] at hbegin
    have hconclude := fetches_conclude deaf b' id command result
    split <;>
    · rename_i he'
      rw [he'] at hconclude
      exact Nat.le_trans (Nat.le_of_eq hconclude) hbegin

theorem fetches_obey_le (deaf : Bool) (b : Broker) (id : ConsumerId) (command : Command) :
    (obey deaf b id command).2.fetches ≤ b.fetches + 2 := by
  have hnote : (b.note (.obeying command)).fetches = b.fetches :=
    fetches_of_errands (errands_note rfl b)
  cases hv : verdict? command with
  | some verdict =>
    obtain ⟨v, error⟩ := verdict
    have hsettle := (fetches_settle (b.note (.obeying command)) id v).trans hnote
    rw [obey_settles hv]
    split
    · rename_i b' he
      rw [he] at hsettle
      rw [← hsettle]
      exact fetches_demand_le deaf b' id command
    · rename_i e b' he
      rw [he] at hsettle
      have hwrite := fetches_write deaf (b'.note (.settleFailed command e)) id (.ofError error)
      rw [fetches_of_errands (errands_note rfl b')] at hwrite
      dsimp only at hsettle hwrite ⊢
      omega
  | none =>
    cases command with
    | init =>
      rw [← hnote]
      exact fetches_demand_le deaf _ id .init
    | unknown text =>
      have hanswer := (fetches_answer deaf _ id (.ofError .unrecognisedCommand)).trans hnote
      simp only [obey]
      split <;>
      · rename_i he
        rw [he] at hanswer
        dsimp only at hanswer ⊢
        omega
    | ack => cases hv
    | nack => cases hv

theorem fetches_serve_le (s : Session) (id : ConsumerId) (turns : Nat) (inlet : Inlet)
    (b : Broker) : (serve s id turns inlet b).2.fetches ≤ b.fetches + 2 * inlet.unread := by
  induction turns generalizing inlet b with
  | zero => exact Nat.le_add_right ..
  | succ turns ih =>
    have htook : ∀ intake, (b.note (.took id intake)).fetches = b.fetches :=
      fun _ => fetches_of_errands (errands_note rfl b)
    simp only [serve]
    split
    · have hclose := fetches_close (disconnect b id none) id
      rw [fetches_disconnect] at hclose
      dsimp only
      omega
    · split
      · exact Nat.le_add_right ..
      · have hclose := fetches_close (disconnect (b.note (.took id .ended)) id none) id
        rw [fetches_disconnect, htook] at hclose
        dsimp only
        omega
      · rename_i e inlet' _
        have hclose := fetches_close (refuse s.deaf (b.note (.took id (.failed e))) id e) id
        rw [fetches_refuse, htook] at hclose
        dsimp only
        omega
      · rename_i c inlet' hn
        -- The command that is taken pays for the two looks of its call.
        have hless : inlet'.unread < inlet.unread := by
          have hshrinks := inlet.next_shrinks
          rw [hn] at hshrinks
          exact hshrinks.2 c rfl
        have hobey := fetches_obey_le s.deaf (b.note (.took id (.command c))) id c
        rw [htook] at hobey
        split
        · rename_i b' he
          rw [he] at hobey
          have hserve := ih inlet' b'
          dsimp only at hobey
          omega
        · rename_i b' he
          rw [he] at hobey
          dsimp only at hobey ⊢
          omega
        · rename_i b' he
          rw [he] at hobey
          have hclose := fetches_close b' id
          dsimp only at hobey ⊢
          omega

theorem fetches_run_le (s : Session) (b : Broker) (id : ConsumerId) :
    (s.run b id).2.fetches ≤ b.fetches + 2 * (s.inlet.unread + 1) := by
  unfold run
  split
  · have hserve := fetches_serve_le s id (s.inlet.unread + 1) s.inlet b
    omega
  · rename_i command _
    have hresume := fetches_resume_le b id
    split
    · rename_i b' he
      rw [he] at hresume
      dsimp only at hresume ⊢
      omega
    · rename_i result b' he
      rw [he] at hresume
      have hconclude := fetches_conclude s.deaf b' id command result
      split
      · rename_i b'' he'
        rw [he'] at hconclude
        have hserve := fetches_serve_le s id (s.inlet.unread + 1) s.inlet b''
        dsimp only at hresume hconclude
        omega
      · rename_i b'' he'
        rw [he'] at hconclude
        have hclose := fetches_close b'' id
        dsimp only at hresume hconclude ⊢
        omega

/-- A session that is still there has nothing to read, or waits for a message. -/
def Halts (id : ConsumerId) : Option Session × Broker → Prop
  | (none, _) => True
  | (some s, b) => s.position = .reading →
      isCancelled b id = false ∧ ∃ inlet : Inlet, inlet.next = (.pending, s.inlet)

/-- The turns of a session are enough for what it has to read. -/
theorem serve_halts (s : Session) (id : ConsumerId) {turns : Nat} (inlet : Inlet) (b : Broker)
    (hturns : inlet.unread < turns) : Halts id (serve s id turns inlet b) := by
  induction turns generalizing inlet b with
  | zero => exact absurd hturns (Nat.not_lt_zero _)
  | succ turns ih =>
    simp only [serve]
    split
    · exact trivial
    · rename_i hfree
      split
      · rename_i inlet' hn
        exact fun _ => ⟨by simpa using hfree, inlet, hn⟩
      · exact trivial
      · exact trivial
      · rename_i c inlet' hn
        have hless : inlet'.unread < inlet.unread := by
          have hshrinks := inlet.next_shrinks
          rw [hn] at hshrinks
          exact hshrinks.2 c rfl
        split
        · exact ih inlet' _ (by omega)
        · intro hreading
          cases hreading
        · exact trivial

theorem run_halts (s : Session) (b : Broker) (id : ConsumerId) : Halts id (s.run b id) := by
  unfold run
  split
  · exact serve_halts s id s.inlet b (Nat.lt_succ_self _)
  · rename_i command hp
    split
    · intro hreading
      rw [hp] at hreading
      cases hreading
    · split
      · exact serve_halts s id s.inlet _ (Nat.lt_succ_self _)
      · exact trivial

end Session

namespace Service
open Broker

variable {s s' s'' : Service} {id : ConsumerId} {n : Nat}

/-- So many tasks run, one after another. -/
inductive Runs : Nat → Service → Service → Prop where
  | done {t : Service} : Runs 0 t t
  | more {k : Nat} {t t' t'' : Service} (h : Task t t') (hr : Runs k t' t'') : Runs (k + 1) t t''

/-- What tasks in the queue, live tasks and what is to be read can come to. A plain consumer's call
or a session can put two tasks on the queue, and one for each command that is read. -/
def bound (s : Service) : Nat :=
  s.broker.ready.length + 2 * (s.pendingCalls + s.sessions.length) +
    tally (fun p => p.2.inlet.unread) s.sessions

theorem weight_eq_bound (s : Service) : s.weight = s.bound := by
  have hsessions : ∀ sessions : Table ConsumerId Session,
      tally (fun p => p.2.inlet.unread + 2) sessions =
        tally (fun p => p.2.inlet.unread) sessions + 2 * sessions.length := by
    intro sessions
    induction sessions with
    | nil => rfl
    | cons p sessions ih =>
      rw [tally_cons, tally_cons, ih, List.length_cons]
      omega
  rw [weight, bound, hsessions]
  omega

/-- A task that runs leaves less to do. -/
theorem Task.weight_lt (h : Task s s') : s'.weight < s.weight := by
  obtain ⟨id, taken, hd, rfl⟩ := h
  have htaken := weight_dequeue hd
  have hrun := weight_run taken id
  omega

theorem Runs.weight_le (h : Runs n s s') : s'.weight + n ≤ s.weight := by
  induction h with
  | done => exact Nat.le_refl _
  | more htask _ ih =>
    have hless := htask.weight_lt
    omega

theorem Runs.tasks (h : Runs n s s') : Tasks s s' := by
  induction h with
  | done => exact .refl
  | more htask _ ih => exact .head htask ih

theorem Tasks.runs (h : Tasks s s') : ∃ n, Runs n s s' := by
  induction h using Relation.ReflTransGen.head_induction_on with
  | refl => exact ⟨0, .done⟩
  | head htask _ ih =>
    obtain ⟨n, hr⟩ := ih
    exact ⟨n + 1, .more htask hr⟩

/-- While there is a task in the queue, it can run. -/
theorem task_of_ready (h : s.broker.ready ≠ []) : ∃ s', Task s s' := by
  cases hd : s.dequeue with
  | none => exact absurd (dequeue_eq_none.mp hd) h
  | some p => exact ⟨_, p.1, p.2, hd, rfl⟩

/-- Tasks do not run for ever. -/
theorem no_endless_tasks (f : Nat → Service) : ¬ ∀ n, Task (f n) (f (n + 1)) := by
  intro h
  have hdown : ∀ n, (f n).weight + n ≤ (f 0).weight := by
    intro n
    induction n with
    | zero => exact Nat.le_refl _
    | succ n ih =>
      have hless := (h n).weight_lt
      omega
  have hend := hdown ((f 0).weight + 1)
  omega

/-- What one run of a task comes to. -/
structure TaskEnds (s : Service) (id : ConsumerId) : Prop where
  /-- A plain consumer's call has returned or sleeps. -/
  call : s.sessions.look id = none →
    (s.run id).broker.Still id ∧ (s.run id).broker.fetches ≤ s.broker.fetches + 2
  /-- A session is over, or has nothing to read, or waits for a message. -/
  session : ∀ session, s.sessions.look id = some session →
    (s.run id).broker.fetches ≤ s.broker.fetches + 2 * (session.inlet.unread + 1) ∧
    ((s.run id).sessions.look id = none ∧ (s.run id).broker.consumer? id = none ∨
      ∃ left, (s.run id).sessions.look id = some left ∧
        (left.position = .reading ∧ (s.run id).broker.Resting id ∧
            Session.isCancelled (s.run id).broker id = false ∧
            (∃ inlet : Inlet, inlet.next = (.pending, left.inlet)) ∨
          (∃ command, left.position = .awaiting command) ∧ (s.run id).broker.Asleep id))

theorem Orderly.task_ends (h : s.Orderly) (id : ConsumerId) : s.TaskEnds id where
  call hs := by
    have hrun : s.run id = { s with broker := s.broker.runNext id } := by simp [run, hs]
    rw [hrun]
    exact ⟨(s.broker.runNext_leads id).2, fetches_runNext_le s.broker id⟩
  session := by
    intro session hs
    have hstands : session.Stands { s.broker with span := session.span } id := h.stands id session hs
    obtain ⟨-, hleaves⟩ := Session.run_leads hstands
    have hhalts := session.run_halts { s.broker with span := session.span } id
    have hfetches := session.fetches_run_le { s.broker with span := session.span } id
    cases hr : session.run { s.broker with span := session.span } id with
    | mk left b =>
      rw [hr] at hleaves hhalts hfetches
      rw [run_session hs hr]
      refine ⟨hfetches, ?_⟩
      cases left with
      | none => exact .inl ⟨Table.look_remove_self .., hleaves⟩
      | some left =>
        refine .inr ⟨left, Table.look_put_self .., ?_⟩
        cases hp : left.position with
        | reading =>
          simp only [Session.Leaves, hp] at hleaves
          exact .inl ⟨rfl, hleaves, hhalts hp⟩
        | awaiting command =>
          simp only [Session.Leaves, hp] at hleaves
          exact .inr ⟨⟨command, rfl⟩, hleaves⟩

end Service

namespace Scene
open Broker Service

variable {s : Scene}

/-- How the tasks of a scene run. -/
structure Quiescent (s : Scene) : Prop where
  /-- No more of them run than this. -/
  bounded : ∀ n service, s.service.Runs n service → n ≤ s.service.bound
  endless : ∀ f : Nat → Service, f 0 = s.service → ¬ ∀ n, Task (f n) (f (n + 1))
  /-- They run until none is left, and there is one way for them to end. -/
  empties : ∃ n, s.service.Runs n s.service.drain ∧ s.service.drain.broker.ready = []
  goes_on : ∀ n service, s.service.Runs n service →
    service.broker.ready = [] ∧ service = s.service.drain ∨ ∃ next, Task service next
  /-- Each run of one ends. -/
  task : ∀ id taken, s.service.dequeue = some (id, taken) → taken.TaskEnds id
  /-- So does each call for a message. -/
  next : ∀ (b : Broker) id c, b.consumer? id = some c → b.NextEnds id

/-- Whoever waits, whatever is to be read and whatever is about to fail: the queue of tasks runs
empty, after no more runs than the tasks, the sessions and what they have to read allow. -/
theorem tasks_run_out (hs : s.Reachable) : s.Quiescent where
  bounded n service h := by
    have hweight := h.weight_le
    rw [weight_eq_bound s.service] at hweight
    omega
  endless f _ := no_endless_tasks f
  empties := by
    obtain ⟨n, hr⟩ := (tasks_drain s.service).runs
    exact ⟨n, hr, drain_done s.service⟩
  goes_on := by
    intro n service h
    by_cases hready : service.broker.ready = []
    · exact .inl ⟨hready, (h.tasks.drained hready).symm⟩
    · exact .inr (task_of_ready hready)
  task id taken hd := (hs.orderly.service.dequeued hd).task_ends id
  next _ _ _ hc := next_ends hc

/-- Two sessions and a consumer that sleep for a topic, when an entry comes and the store is about to
fail. -/
def handedRound : List Step :=
  [⟨.session "t" "r" false, false⟩, ⟨.session "t" "s" false, false⟩, ⟨.subscribe "t" "c", false⟩,
   ⟨.command "r" .init, false⟩, ⟨.command "s" .init, false⟩, ⟨.next "c" false, false⟩,
   ⟨.deafen "r", false⟩, ⟨.deafen "s", false⟩, ⟨.fault .fetchNext ⟨.closed, 1, 1⟩, false⟩,
   ⟨.publish "t" [1], true⟩]

theorem handedRound_runs_out : (after handedRound).service.bound = 7 ∧
    (∀ n service, (after handedRound).service.Runs n service → n ≤ 7) ∧
    ∃ n, (after handedRound).service.Runs n (after handedRound).service.drain := by
  have hs := tasks_run_out (s := after handedRound) (reachable_after (by decide))
  have hbound : (after handedRound).service.bound = 7 := by decide +kernel
  obtain ⟨n, hr, -⟩ := hs.empties
  exact ⟨hbound, fun n service h => hbound ▸ hs.bounded n service h, n, hr⟩

end Scene

end TopicQueue

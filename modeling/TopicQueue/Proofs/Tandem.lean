import TopicQueue.Proofs.Feeds
import TopicQueue.Proofs.Sleepers

namespace TopicQueue

namespace Session
open Broker Inlet

variable {rest rest' : Bytes} {hungUp hungUp' : Bool} {s : Session} {b b' : Broker}
  {id : ConsumerId} {inlet inlet' i i' : Inlet}

/-- A session and its double, while they run. -/
inductive Paired (rest : Bytes) (hungUp hungUp' : Bool) : Option Session → Option Session → Prop where
  | gone : Paired rest hungUp hungUp' none none
  | running {session : Session} {inlet : Inlet}
      (hm : Mirrors rest hungUp hungUp' session.inlet inlet) :
      Paired rest hungUp hungUp' (some session) (some { session with inlet })

theorem Paired.cases {left left' : Option Session} (h : Paired rest hungUp hungUp' left left') :
    (left = none ∧ left' = none) ∨ ∃ session inlet, left = some session ∧
      left' = some { session with inlet } ∧ Mirrors rest hungUp hungUp' session.inlet inlet := by
  cases h with
  | gone => exact .inl ⟨rfl, rfl⟩
  | running hm => exact .inr ⟨_, _, rfl, rfl, hm⟩

/-- Runs of both that do the same; where a session goes on to read, it has read all commands. -/
structure Agree (rest : Bytes) (hungUp hungUp' : Bool) (r r' : Option Session × Broker) : Prop where
  broker : r'.2 = r.2
  left : Paired rest hungUp hungUp' r.1 r'.1
  calm : ∀ session, r'.1 = some session → session.position = .reading →
    session.inlet = .commands [] false

theorem agree_over (b : Broker) : Agree rest hungUp hungUp' (none, b) (none, b) :=
  ⟨rfl, .gone, by simp⟩

theorem serve_agree {turns turns' : Nat} (hm : Mirrors rest hungUp hungUp' i i')
    (ht : i.unread < turns) (ht' : i'.unread < turns') :
    Agree rest hungUp hungUp' (s.serve id turns i b)
      (serve { s with inlet := inlet } id turns' i' b) := by
  induction turns generalizing turns' i i' b with
  | zero => exact absurd ht (Nat.not_lt_zero _)
  | succ turns ih =>
    obtain ⟨turns', rfl⟩ := Nat.exists_eq_add_one_of_ne_zero (Nat.ne_zero_of_lt ht')
    simp only [serve]
    split
    · exact agree_over _
    · have hfinds := hm.next
      have hless := i.next_shrinks
      have hless' := i'.next_shrinks
      generalize i.next = r at hfinds hless
      generalize i'.next = r' at hfinds hless'
      cases hfinds with
      | ended | failed => exact agree_over _
      | pending hm => exact ⟨rfl, .running hm, by simp⟩
      | @command c j j' hm =>
        dsimp only
        cases obey s.deaf (b.note (.took id (.command c))) id c with
        | mk turn b =>
          cases turn with
          | goOn =>
            have hj := hless.2 c rfl
            have hj' := hless'.2 c rfl
            dsimp only at hj hj'
            exact ih hm (by omega) (by omega)
          | wait => exact ⟨rfl, .running hm, by simp⟩
          | stop => exact agree_over _

/-- A run of the one does what a run of the other does. -/
theorem run_agree (hm : Mirrors rest hungUp hungUp' s.inlet inlet) :
    Agree rest hungUp hungUp' (s.run b id) (run { s with inlet := inlet } b id) := by
  have hserve : ∀ b, Agree rest hungUp hungUp' (s.serve id (s.inlet.unread + 1) s.inlet b)
      (serve { s with inlet := inlet } id (inlet.unread + 1) inlet b) :=
    fun b => serve_agree hm (Nat.lt_succ_self _) (Nat.lt_succ_self _)
  obtain ⟨i, position, deaf, span⟩ := s
  simp only [run]
  cases position with
  | reading => exact hserve b
  | awaiting command =>
    dsimp only
    cases b.resume id with
    | mk result b =>
      cases result with
      | none => exact ⟨rfl, .running hm, by simp⟩
      | some result =>
        dsimp only
        cases conclude deaf b id command result with
        | mk goesOn b =>
          cases goesOn with
          | true => exact hserve b
          | false => exact agree_over _

/-- A session that reads looks in vain at chunks in which no command is complete. -/
theorem run_waits (hp : s.position = .reading) (hc : isCancelled b id = false)
    (hm : Mirrors rest hungUp hungUp' s.inlet (.commands [] false)) :
    ∃ inlet, s.run b id = (some { s with inlet }, b) ∧
      Mirrors rest hungUp hungUp' inlet (.commands [] false) := by
  have hfinds : Finds rest hungUp hungUp' s.inlet.next (.pending, .commands [] false) := hm.next
  generalize hn : s.inlet.next = r at hfinds
  cases hfinds with
  | @pending inlet hm => exact ⟨inlet, by simp [run, hp, serve, hc, hn], hm⟩

end Session

namespace Broker
open Session

variable {id other : ConsumerId} {b b' : Broker}

/-- What somebody else has done leaves a session's consumer as it was, and its task in the queue. -/
structure Undisturbed (id : ConsumerId) (b b' : Broker) : Prop where
  cancelled : isCancelled b' id = isCancelled b id
  ready : id ∈ b.ready → id ∈ b'.ready
  span : b.span = none → b'.span = none

theorem Undisturbed.trans {b'' : Broker} (h : Undisturbed id b b') (h' : Undisturbed id b' b'') : Undisturbed id b b'' :=
  ⟨h'.cancelled.trans h.cancelled, fun hmem => h'.ready (h.ready hmem),
    fun hspan => h'.span (h.span hspan)⟩

theorem Steady.undisturbed (h : Steady other b b') (hne : id ≠ other) (hs : Spared id b b') :
    Undisturbed id b b' :=
  ⟨isCancelled_spared hs, h.ready hne, h.span.trans⟩

theorem undisturbed_enqueue (b : Broker) (id other : ConsumerId) :
    Undisturbed id b (b.enqueue other) := by
  have hsteady : Steady id b (b.enqueue other) := steady_enqueue b other
  exact ⟨isCancelled_spared (.of_eq (consumer?_enqueue ..)), mem_enqueue_of_mem other,
    hsteady.span.trans⟩

theorem nextId_release (b : Broker) (id : ConsumerId) : (b.release id).nextId = b.nextId := by
  cases hc : b.consumer? id with
  | none => simp [release, hc]
  | some c =>
    obtain ⟨b', he, hsteady, -⟩ := release_forgets hc
    rw [he]
    exact hsteady.nextId

theorem undisturbed_release (hne : id ≠ other) : Undisturbed id b (b.release other) := by
  cases hc : b.consumer? other with
  | none =>
    have hsame : b.release other = b := by simp [release, hc]
    rw [hsame]
    exact ⟨rfl, fun hmem => hmem, fun hspan => hspan⟩
  | some c =>
    obtain ⟨b', he, hsteady, hspared⟩ := release_forgets hc
    rw [he]
    refine ⟨isCancelled_spared ((hspared id hne).after ?_), hsteady.ready hne, hsteady.span.trans⟩
    exact consumer?_forget hne c.topic

theorem undisturbed_subscribe (hid : id < b.nextId) (topic : String) :
    Undisturbed id b (b.subscribe topic).2 := by
  refine ⟨isCancelled_spared (.of_eq ?_), fun hmem => hmem, fun hspan => hspan⟩
  rw [consumer?_subscribe, if_neg (Nat.ne_of_lt hid)]

theorem runNext_span (b : Broker) (id : ConsumerId) : (b.runNext id).span = b.span := by
  rcases b.runNext_cases id with he | ⟨b', hb', he⟩
  · rw [he]
  · have hsteady : Steady id b b' := by
      rcases hb' with rfl | rfl
      · exact steady_begin b id
      · exact steady_resume b id
    rcases he with he | ⟨a, he⟩ <;>
    · rw [he]
      exact hsteady.span

end Broker

namespace Service
open Broker Session Inlet

variable {id other : ConsumerId} {rest rest' octets : Bytes} {hungUp hungUp' after after' : Bool}
  {s s' taken : Service} {b b' : Broker}

theorem undisturbed_run (s : Service) (hne : id ≠ other) : Undisturbed id s.broker (s.run other).broker := by
  have hapart := s.apart_run other
  refine ⟨isCancelled_spared (hapart.spared id hne), hapart.ready id hne, fun hspan => ?_⟩
  cases hs : s.sessions.look other with
  | none => simpa [run, hs, runNext_span] using hspan
  | some session =>
    cases hr : session.run { s.broker with span := session.span } other with
    | mk left b => rw [run_session hs hr]

/-- Two services that differ in the input of one session. Unless the task of that session is in the
queue, it has read all commands if it reads at all. -/
structure Tandem (id : ConsumerId) (rest : Bytes) (hungUp hungUp' : Bool) (s s' : Service) : Prop
    where
  broker : s'.broker = s.broker
  others : ∀ other, other ≠ id → s'.sessions.look other = s.sessions.look other
  own : Paired rest hungUp hungUp' (s.sessions.look id) (s'.sessions.look id)
  calm : ∀ session, s'.sessions.look id = some session → session.position = .reading →
    id ∉ s.broker.ready → session.inlet = .commands [] false ∧ isCancelled s.broker id = false ∧
      s.broker.span = none

/-- Both brokers become another one. -/
theorem Tandem.setBroker (h : Tandem id rest hungUp hungUp' s s')
    (hb : ∀ session, s.sessions.look id = some session → Undisturbed id s.broker b) :
    Tandem id rest hungUp hungUp' { s with broker := b } { s' with broker := b } := by
  refine ⟨rfl, h.others, h.own, fun session hs hp hr => ?_⟩
  rcases h.own.cases with ⟨-, hlook'⟩ | ⟨_, _, hlook, -⟩
  · rw [hlook'] at hs
    cases hs
  · have hleft := hb _ hlook
    obtain ⟨hinlet, hfree, hspan⟩ := h.calm session hs hp fun hmem => hr (hleft.ready hmem)
    exact ⟨hinlet, hleft.cancelled.trans hfree, hleft.span hspan⟩

theorem Tandem.enqueue (h : Tandem id rest hungUp hungUp' s s') (other : ConsumerId) :
    Tandem id rest hungUp hungUp' { s with broker := s.broker.enqueue other }
      { s' with broker := s.broker.enqueue other } :=
  h.setBroker fun _ _ => undisturbed_enqueue s.broker id other

theorem look_elim (left : Option Session) (t : Table ConsumerId Session) (k who : ConsumerId) :
    (left.elim (t.remove who) (t.put who)).look k = if k = who then left else t.look k := by
  cases left with
  | none => exact Table.look_remove t k who
  | some session => exact Table.look_put t k who session

/-- Another session comes, changes or goes. -/
theorem Tandem.replace (h : Tandem id rest hungUp hungUp' s s') (hne : other ≠ id)
    (left : Option Session) :
    Tandem id rest hungUp hungUp'
      { s with sessions := left.elim (s.sessions.remove other) (s.sessions.put other) }
      { s' with sessions := left.elim (s'.sessions.remove other) (s'.sessions.put other) } := by
  have hself : ∀ t : Table ConsumerId Session,
      (left.elim (t.remove other) (t.put other)).look id = t.look id :=
    fun t => (look_elim left t id other).trans (if_neg (Ne.symm hne))
  refine ⟨h.broker, ?_, ?_, ?_⟩
  · intro k hk
    dsimp only
    rw [look_elim, look_elim, h.others k hk]
  · dsimp only
    rw [hself, hself]
    exact h.own
  · intro session hs
    dsimp only at hs
    rw [hself] at hs
    exact h.calm session hs

theorem Tandem.run_other (h : Tandem id rest hungUp hungUp' s s') (hne : other ≠ id) :
    Tandem id rest hungUp hungUp' (s.run other) (s'.run other) := by
  have hleft := s.undisturbed_run (Ne.symm hne)
  have hlook := h.others other hne
  obtain ⟨b, sessions⟩ := s
  obtain ⟨b', sessions'⟩ := s'
  obtain rfl : b' = b := h.broker
  cases hs : sessions.look other with
  | none =>
    have hrun : ∀ {t : Table ConsumerId Session}, t.look other = none →
        run ⟨b', t⟩ other = ⟨b'.runNext other, t⟩ := fun ht => by simp [run, ht]
    rw [hrun hs] at hleft ⊢
    rw [hrun (hlook.trans hs)]
    exact h.setBroker fun _ _ => hleft
  | some session =>
    cases hr : session.run { b' with span := session.span } other with
    | mk left b =>
      rw [run_session (s := ⟨b', sessions⟩) hs hr] at hleft ⊢
      rw [run_session (s := ⟨b', sessions'⟩) (hlook.trans hs) hr]
      exact (h.setBroker fun _ _ => hleft).replace hne left

/-- The task of the session itself runs. -/
theorem Tandem.run_own (h : Tandem id rest hungUp hungUp' s s') (ready : List ConsumerId) :
    Tandem id rest hungUp hungUp' (run { s with broker := { s.broker with ready } } id)
      (run { s' with broker := { s'.broker with ready } } id) := by
  obtain ⟨b, sessions⟩ := s
  obtain ⟨b', sessions'⟩ := s'
  obtain rfl : b' = b := h.broker
  rcases h.own.cases with ⟨hs, hs'⟩ | ⟨session, inlet, hs, hs', hm⟩
  · have hrun : ∀ {t : Table ConsumerId Session}, t.look id = none →
        run ⟨{ b' with ready }, t⟩ id = ⟨runNext { b' with ready } id, t⟩ :=
      fun ht => by simp [run, ht]
    rw [hrun hs, hrun hs']
    refine h.setBroker fun session hlook => ?_
    rw [hs] at hlook
    cases hlook
  · have hagree : Agree rest hungUp hungUp'
        (session.run { b' with ready, span := session.span } id)
        (Session.run { session with inlet } { b' with ready, span := session.span } id) :=
      run_agree hm
    cases hr : session.run { b' with ready, span := session.span } id with
    | mk left b =>
    cases hr' : Session.run { session with inlet } { b' with ready, span := session.span } id with
    | mk left' b₁ =>
    rw [hr, hr'] at hagree
    obtain ⟨hbroker, hpaired, hcalm⟩ := hagree
    obtain rfl : b₁ = b := hbroker
    rw [run_session (s := ⟨{ b' with ready }, sessions⟩) hs hr,
      run_session (s := ⟨{ b' with ready }, sessions'⟩) hs' hr']
    refine ⟨rfl, fun k hk => ?_, ?_, fun going hs hp _ => ?_⟩
    · dsimp only
      rw [look_elim, look_elim, if_neg hk, if_neg hk]
      exact h.others k hk
    · dsimp only
      rwa [look_elim, look_elim, if_pos rfl, if_pos rfl]
    · dsimp only at hs
      rw [look_elim, if_pos rfl] at hs
      subst hs
      have hfree := Session.run_heeds hr'
      exact ⟨hcalm going rfl hp, hfree, rfl⟩

/-- The next task runs in both. -/
theorem Tandem.task (h : Tandem id rest hungUp hungUp' s s') {next : Service} (ht : Task s next) :
    ∃ next', Task s' next' ∧ Tandem id rest hungUp hungUp' next next' := by
  obtain ⟨who, taken, hd, rfl⟩ := ht
  obtain ⟨ready, hready, hbroker, hsessions⟩ := dequeue_some hd
  have htaken : taken = { s with broker := { s.broker with ready } } := by
    obtain ⟨b, sessions⟩ := taken
    simp_all
  have hd' : s'.dequeue = some (who, { s' with broker := { s'.broker with ready } }) := by
    simp [dequeue, h.broker, hready]
  refine ⟨_, ⟨who, _, hd', rfl⟩, ?_⟩
  rw [htaken]
  by_cases hwho : who = id
  · rw [hwho]
    exact h.run_own ready
  · refine Tandem.run_other ?_ hwho
    have hleft : Undisturbed id s.broker { s.broker with ready } := by
      refine ⟨rfl, fun hmem => ?_, fun hspan => hspan⟩
      rw [hready] at hmem
      exact (List.mem_cons.mp hmem).resolve_left (Ne.symm hwho)
    rw [h.broker]
    exact h.setBroker fun _ _ => hleft

theorem Tandem.drain (h : Tandem id rest hungUp hungUp' s s') :
    Tandem id rest hungUp hungUp' s.drain s'.drain := by
  have htasks : ∀ {next : Service}, Tasks s next →
      ∃ next', Tasks s' next' ∧ Tandem id rest hungUp hungUp' next next' := by
    intro next ht
    induction ht with
    | refl => exact ⟨s', .refl, h⟩
    | tail _ htask ih =>
      obtain ⟨before, hbefore, htandem⟩ := ih
      obtain ⟨next', htask', hnext⟩ := htandem.task htask
      exact ⟨next', hbefore.tail htask', hnext⟩
  obtain ⟨next', ht, hnext⟩ := htasks (tasks_drain s)
  have hready : next'.broker.ready = [] := by rw [hnext.broker, drain_done]
  rwa [ht.drained hready]

theorem feed_none (hs : s.sessions.look id = none) (change : Inlet → Inlet) :
    s.feed id change = s := by
  simp [Service.feed, hs]

theorem feed_waiting {session : Session} (hs : s.sessions.look id = some session)
    (hp : session.position ≠ .reading) (change : Inlet → Inlet) :
    s.feed id change =
      { s with sessions := s.sessions.put id { session with inlet := change session.inlet } } := by
  simp [Service.feed, hs, hp]

theorem Tandem.feed_other (h : Tandem id rest hungUp hungUp' s s') (hne : other ≠ id)
    (change : Inlet → Inlet) :
    Tandem id rest hungUp hungUp' (s.feed other change) (s'.feed other change) := by
  have hlook := h.others other hne
  cases hs : s.sessions.look other with
  | none => simpa [Service.feed, hlook, hs] using h
  | some session =>
    have hput := h.replace hne (some { session with inlet := change session.inlet })
    simp only [Service.feed, hlook, hs, h.broker]
    split
    · exact hput.enqueue other
    · rw [← h.broker] at hput ⊢
      exact hput

/-- Once the session is over, nothing matters that is left of its input. -/
theorem Tandem.ended (h : Tandem id rest hungUp hungUp' s s') (hs : s.sessions.look id = none) :
    s'.sessions.look id = none ∧ Tandem id rest' after after' s s' := by
  rcases h.own.cases with ⟨-, hs'⟩ | ⟨session, inlet, hrunning, -⟩
  · refine ⟨hs', h.broker, h.others, ?_, fun session hlook => ?_⟩
    · rw [hs, hs']
      exact .gone
    · rw [hs'] at hlook
      cases hlook
  · rw [hs] at hrunning
    cases hrunning

/-- A session whose chunks still come has commands that still come. -/
theorem Tandem.open (h : Tandem id rest false hungUp' s s')
    (hs : (s.sessions.look id).isSome) : hungUp' = false := by
  rcases h.own.cases with ⟨hnone, -⟩ | ⟨session, inlet, -, -, hm⟩
  · rw [hnone] at hs
    cases hs
  · exact hm.open

/-- Something comes into the inputs of both. -/
theorem Tandem.feed (h : Tandem id rest hungUp hungUp' s s') {change change' : Inlet → Inlet}
    (hm : ∀ i i', Mirrors rest hungUp hungUp' i i' →
      Mirrors rest' after after' (change i) (change' i')) :
    Tandem id rest' after after' (s.feed id change) (s'.feed id change') := by
  rcases h.own.cases with ⟨hs, hs'⟩ | ⟨session, inlet, hs, hs', hmirrors⟩
  · rw [feed_none hs, feed_none hs']
    exact (h.ended hs).2
  · simp only [Service.feed, hs, hs', h.broker]
    refine ⟨rfl, fun k hk => ?_, ?_, fun going hlook hp hr => ?_⟩
    · dsimp only
      rw [Table.look_put_of_ne _ _ hk, Table.look_put_of_ne _ _ hk]
      exact h.others k hk
    · dsimp only
      rw [Table.look_put_self, Table.look_put_self]
      exact .running (hm _ _ hmirrors)
    · dsimp only at hlook hr
      rw [Table.look_put_self] at hlook
      cases hlook
      dsimp only at hp
      rw [if_pos hp] at hr
      exact absurd (mem_enqueue s.broker id) hr

/-- A session that waits for a message does not look at its input, whatever that is. -/
theorem Tandem.refit (h : Tandem id rest hungUp hungUp' s s') {t t' : Table ConsumerId Session}
    (ht : ∀ k, k ≠ id → t.look k = s.sessions.look k)
    (ht' : ∀ k, k ≠ id → t'.look k = s'.sessions.look k) {session : Session} {inlet : Inlet}
    (hs : t.look id = some session) (hs' : t'.look id = some { session with inlet })
    (hp : session.position ≠ .reading) (hm : Mirrors rest' after after' session.inlet inlet) :
    Tandem id rest' after after' { s with sessions := t } { s' with sessions := t' } := by
  refine ⟨h.broker, fun k hk => ?_, ?_, fun going hlook hreading => ?_⟩
  · exact (ht' k hk).trans ((h.others k hk).trans (ht k hk).symm)
  · dsimp only
    rw [hs, hs']
    exact .running hm
  · dsimp only at hlook
    rw [hs'] at hlook
    cases hlook
    exact absurd hreading hp

/-- A session that reads is fed, and its task alone runs. -/
theorem feed_looked {session : Session} {inlet : Inlet} (hr : s.broker.ready = [])
    (hspan : s.broker.span = none) (hs : s.sessions.look id = some session)
    (hp : session.position = .reading) {change : Inlet → Inlet}
    (hrun : Session.run { session with inlet := change session.inlet }
        { s.broker with span := session.span } id =
      (some { session with inlet }, { s.broker with span := session.span })) :
    (s.feed id change).drain = { s with sessions := s.sessions.put id { session with inlet } } := by
  obtain ⟨b, sessions⟩ := s
  dsimp only at hr hspan hs hrun ⊢
  have hdequeue : (feed ⟨b, sessions⟩ id change).dequeue =
      some (id, ⟨b, sessions.put id { session with inlet := change session.inlet }⟩) := by
    obtain ⟨store, faults, topics, consumers, nextId, ready, journal, span, clock⟩ := b
    obtain rfl : ready = [] := hr
    simp [feed, hs, hp, enqueue, dequeue]
  have hran : run ⟨b, sessions.put id { session with inlet := change session.inlet }⟩ id =
      ⟨b, sessions.put id { session with inlet }⟩ := by
    rw [run_session (s := ⟨b, _⟩) (Table.look_put_self ..) hrun]
    simp only [Option.elim_some, Table.put_put]
    rw [← hspan]
  have htask : Task (feed ⟨b, sessions⟩ id change) ⟨b, sessions.put id { session with inlet }⟩ :=
    ⟨id, _, hdequeue, hran.symm⟩
  exact Tasks.drained (.single htask) hr

/-- A chunk that completes no command comes; where the session reads, it looks in vain. -/
theorem Tandem.feed_vain (h : Tandem id rest false hungUp' s s') (hr : s.broker.ready = [])
    (hm : ∀ i i', Mirrors rest false hungUp' i i' →
      Mirrors rest' false hungUp' (i.pushChunk (.data octets)) i') :
    Tandem id rest' false hungUp' (s.feed id (·.pushChunk (.data octets))).drain s' := by
  rcases h.own.cases with ⟨hs, -⟩ | ⟨session, inlet, hs, hs', hmirrors⟩
  · rw [feed_none hs, drain_idle hr]
    exact (h.ended hs).2
  · have hmirrors' := hm _ _ hmirrors
    by_cases hp : session.position = .reading
    · obtain ⟨hinlet, hfree, hspan⟩ := h.calm _ hs' hp (by simp [hr])
      obtain rfl : inlet = .commands [] false := hinlet
      obtain ⟨inlet, hrun, hleft⟩ := run_waits
        (s := { session with inlet := session.inlet.pushChunk (.data octets) })
        (b := { s.broker with span := session.span }) hp hfree hmirrors'
      rw [feed_looked hr hspan hs hp hrun]
      refine ⟨h.broker, fun k hk => ?_, ?_, h.calm⟩
      · exact (h.others k hk).trans (Table.look_put_of_ne _ _ hk).symm
      · dsimp only
        rw [Table.look_put_self, hs']
        exact .running hleft
    · rw [feed_waiting hs hp, drain_idle (by exact hr)]
      exact h.refit (fun k hk => Table.look_put_of_ne _ _ hk) (fun _ _ => rfl)
        (Table.look_put_self ..) hs' hp hmirrors'

/-- Behind a failure in the commands nothing is looked at. -/
theorem Tandem.feed_hidden (h : Tandem id rest true false s s') (hr : s.broker.ready = [])
    {change : Inlet → Inlet}
    (hm : ∀ i i', Mirrors rest true false i i' → Mirrors rest true after' i (change i')) :
    Tandem id rest true after' s (s'.feed id change) := by
  rcases h.own.cases with ⟨hs, hs'⟩ | ⟨session, inlet, hs, hs', hmirrors⟩
  · rw [feed_none hs']
    exact (h.ended hs).2
  · have hp : session.position ≠ .reading := fun hp =>
      hmirrors.hides.1 (h.calm _ hs' hp (by simp [hr])).1
    rw [feed_waiting hs' hp]
    exact h.refit (fun _ _ => rfl) (fun k hk => Table.look_put_of_ne _ _ hk) hs
      (Table.look_put_self ..) hp (hm _ _ hmirrors)

/-- Something comes to both that ends their inputs. Where an input has been hung up, nothing comes. -/
theorem Tandem.finish (h : Tandem id rest hungUp hungUp' s s') (hr : s.broker.ready = [])
    (change change' : Inlet → Inlet) (after after' : Bool)
    (hopen : hungUp = false → hungUp' = false → ∀ i i', Mirrors rest false false i i' →
      Mirrors rest after after' (change i) (change' i'))
    (hhidden : hungUp = true → hungUp' = false → ∀ i i', Mirrors rest true false i i' →
      Mirrors rest true after' i (change' i'))
    (hover : hungUp = true → after = true ∧ (hungUp' = true → after' = true)) :
    Tandem id rest after after' (if hungUp then s else s.feed id change)
      (if hungUp' then s' else s'.feed id change') := by
  cases hs : s.sessions.look id with
  | none =>
    obtain ⟨hs', hended⟩ : _ ∧ Tandem id rest after after' s s' := h.ended hs
    rwa [feed_none hs, feed_none hs', ite_self, ite_self]
  | some session =>
    cases hungUp with
    | false =>
      obtain rfl : hungUp' = false := h.open (by simp [hs])
      exact h.feed (hopen rfl rfl)
    | true =>
      obtain ⟨rfl, hboth⟩ := hover rfl
      cases hungUp' with
      | false => exact h.feed_hidden hr (hhidden rfl rfl)
      | true =>
        obtain rfl := hboth rfl
        exact h

theorem Tandem.openSession (h : Tandem id rest hungUp hungUp' s s') (hid : id < s.broker.nextId)
    (topic : String) (inlet : Inlet) (span : Option RequestSpan) :
    Tandem id rest hungUp hungUp' (s.openSession topic inlet span).2
      (s'.openSession topic inlet span).2 := by
  have hjoined := h.setBroker fun _ _ => undisturbed_subscribe hid topic
  have hopened := (hjoined.enqueue s.broker.nextId).replace (Nat.ne_of_gt hid)
    (some { inlet, span })
  have hbroker := h.broker
  obtain ⟨b', sessions'⟩ := s'
  obtain rfl : b' = s.broker := hbroker
  exact hopened

theorem Tandem.deafen (h : Tandem id rest hungUp hungUp' s s') (who : ConsumerId) :
    Tandem id rest hungUp hungUp' (s.deafen who) (s'.deafen who) := by
  by_cases hwho : who = id
  · subst hwho
    rcases h.own.cases with ⟨hs, hs'⟩ | ⟨session, inlet, hs, hs', hm⟩
    · simpa [Service.deafen, hs, hs'] using h
    · simp only [Service.deafen, hs, hs']
      refine ⟨h.broker, fun k hk => ?_, ?_, fun going hlook hp hr => ?_⟩
      · dsimp only
        rw [Table.look_put_of_ne _ _ hk, Table.look_put_of_ne _ _ hk]
        exact h.others k hk
      · dsimp only
        rw [Table.look_put_self, Table.look_put_self]
        exact .running hm
      · dsimp only at hlook
        rw [Table.look_put_self] at hlook
        cases hlook
        have hcalm := h.calm _ hs' hp hr
        exact hcalm
  · have hlook := h.others who hwho
    cases hs : s.sessions.look who with
    | none => simpa [Service.deafen, hlook, hs] using h
    | some session =>
      simp only [Service.deafen, hlook, hs]
      exact h.replace hwho (some { session with deaf := true })

theorem Tandem.cancelSession (h : Tandem id rest hungUp hungUp' s s') (who : ConsumerId) :
    Tandem id rest hungUp hungUp' (s.cancelSession who) (s'.cancelSession who) := by
  have hbroker := h.broker
  by_cases hwho : who = id
  · subst hwho
    rcases h.own.cases with ⟨hs, hs'⟩ | ⟨session, inlet, hs, hs', hm⟩
    · simpa [Service.cancelSession, hs, hs'] using h
    · simp only [Service.cancelSession, hs, hs', hbroker]
      refine ⟨rfl, h.others, h.own, fun going hlook hp hr => ?_⟩
      dsimp only at hlook hr
      rw [hs'] at hlook
      cases hlook
      dsimp only at hp
      rw [if_pos hp] at hr
      exact absurd (mem_enqueue _ who) hr
  · have hlook := h.others who hwho
    cases hs : s.sessions.look who with
    | none => simpa [Service.cancelSession, hlook, hs] using h
    | some session =>
      have hcalled := h.setBroker fun _ _ =>
        (steady_cancel s.broker who).undisturbed (Ne.symm hwho) (spared_cancel (Ne.symm hwho))
      simp only [Service.cancelSession, hlook, hs, hbroker]
      split
      · exact hcalled.enqueue who
      · exact hcalled

/-- What comes while no task runs may as well come at once. -/
theorem feed_feed (s : Service) (id : ConsumerId) (change change' : Inlet → Inlet) :
    (s.feed id change).feed id change' = s.feed id fun i => change' (change i) := by
  cases hs : s.sessions.look id with
  | none => rw [feed_none hs, feed_none hs, feed_none hs]
  | some session =>
    simp only [Service.feed, hs, Table.look_put_self, Table.put_put]
    split
    · have htwice : (s.broker.enqueue id).enqueue id = s.broker.enqueue id := by
        rw [enqueue, if_pos (mem_enqueue s.broker id)]
      rw [htwice]
    · rfl

end Service

end TopicQueue

import TopicQueue.Proofs.Conversations
import TopicQueue.Proofs.LoneSession
import TopicQueue.Proofs.Tandem
import TopicQueue.Scene.Report

namespace TopicQueue

/-- Feeds the session of this name. -/
def Action.feeds (name : String) : Action → Bool
  | .command n _ | .bytes n _ | .fail n _ | .hangUp n => n = name
  | _ => false

/-- Gives this name to a new session. -/
def Action.opens (name : String) : Action → Bool
  | .session _ n _ => n = name
  | _ => false

namespace Scene
open Broker Service Session

/-- At this time. -/
def atTime (s : Scene) (t : Int64) : Scene := s.setBroker { s.broker with clock := t.toInt }

def runSteps (s : Scene) (steps : List Step) : Scene := steps.foldl (fun s t => (s.step t).2) s

/-- Actions at their times; after each, all tasks run that have been woken. -/
def runPromptly (s : Scene) (actions : List (Int64 × Action)) : Scene :=
  actions.foldl (fun s (t, a) => ((s.atTime t).step ⟨a, false⟩).2) s

/-- Several steps at each time, or none. -/
def runBatches (s : Scene) (batches : List (Int64 × List Step)) : Scene :=
  batches.foldl (fun s (t, steps) => (s.atTime t).runSteps steps) s

/-- Commands come at once; tasks run after the last. -/
def commandSteps (name : String) : List Command → List Step
  | [] => []
  | [c] => [⟨.command name c, false⟩]
  | c :: cs => ⟨.command name c, true⟩ :: commandSteps name cs

/-- The steps that stand in for an action where the session of this name reads commands, and the
octets that are left undecoded after it. As long as a name is not given to another session, there
are such octets. Nothing, if a chunk that somebody takes cannot be decoded. -/
def standIn (name : String) (s : Scene) : Option Bytes → Action →
    Option (List Step × Option Bytes)
  | some rest, .bytes n octets =>
    if n ≠ name then some ([⟨.bytes n octets, false⟩], some rest)
    else if (s.perform (.bytes n octets)).1 = .gone then some ([], some rest)
    else (Command.split (rest ++ octets)).map fun (cs, rest) => (commandSteps name cs, some rest)
  | some rest, .command n c => some (if n = name then [] else [⟨.command n c, false⟩], some rest)
  | some rest, .fail n e =>
    some ([⟨.fail n (if n = name then .lost transportReason else e), false⟩], some rest)
  | some rest, .hangUp n =>
    let inside := n = name ∧ rest.all Command.isSpace = false
    some ([⟨if inside then .fail n .truncated else .hangUp n, false⟩], some rest)
  | rest, a => some ([⟨a, false⟩], if a.opens name then none else rest)

/-- The same for action after action, as the scene goes on. -/
def standInAll (name : String) : Scene → Option Bytes → List (Int64 × Action) →
    Option (List (Int64 × List Step))
  | _, _, [] => some []
  | s, rest, (t, a) :: later =>
    (standIn name (s.atTime t) rest a).bind fun (steps, rest) =>
      (standInAll name ((s.atTime t).step ⟨a, false⟩).2 rest later).map ((t, steps) :: ·)

/-- The sessions' names. -/
def names (s : Scene) : List (String × ConsumerId) :=
  s.clients.map fun (name, client) => (name, client.id)

/-- Two scenes in which all is the same but the input of one session. As long as the name of that
session is its own, what has come to it has been decoded up to this rest. -/
structure Tandem (name : String) (id : ConsumerId) (feed : Option Bytes) (s s' : Scene) : Prop where
  callers : s'.callers = s.callers
  names : s'.names = s.names
  strangers : ∀ other, (other = name → feed = none) →
    s'.clients.look other = s.clients.look other ∧
    ∀ client, s.clients.look other = some client → client.id ≠ id
  old : id < s.broker.nextId
  own : ∃ rest hungUp hungUp', Service.Tandem id rest hungUp hungUp' s.service s'.service ∧
    ∀ r, feed = some r → r = rest ∧
      s.clients.look name = some ⟨id, true, hungUp⟩ ∧ s'.clients.look name = some ⟨id, false, hungUp'⟩

variable {name : String} {id : ConsumerId} {feed : Option Bytes} {s s' : Scene}

theorem Tandem.broker (h : Tandem name id feed s s') : s'.broker = s.broker := by
  obtain ⟨rest, hungUp, hungUp', ht, -⟩ := h.own
  exact ht.broker

theorem Tandem.pending (h : Tandem name id feed s s') (who : ConsumerId) :
    s'.pending who = s.pending who := by
  unfold Scene.pending
  rw [h.broker]

/-- The services change, and stay in tandem. -/
theorem Tandem.serve (h : Tandem name id feed s s') {t t' : Service}
    (ht : ∀ {rest hungUp hungUp'}, Service.Tandem id rest hungUp hungUp' s.service s'.service →
      Service.Tandem id rest hungUp hungUp' t t') (hold : s.broker.nextId ≤ t.broker.nextId) :
    Tandem name id feed { s with service := t } { s' with service := t' } := by
  obtain ⟨rest, hungUp, hungUp', htandem, hclients⟩ := h.own
  exact ⟨h.callers, h.names, h.strangers, Nat.lt_of_lt_of_le h.old hold,
    rest, hungUp, hungUp', ht htandem, hclients⟩

/-- Somebody else has called the broker. -/
theorem Tandem.called (h : Tandem name id feed s s') {b : Broker}
    (hb : ∀ session, s.service.sessions.look id = some session → Undisturbed id s.broker b)
    (hold : s.broker.nextId ≤ b.nextId) : Tandem name id feed (s.setBroker b) (s'.setBroker b) :=
  h.serve (fun ht => ht.setBroker hb) hold

theorem Tandem.steady (h : Tandem name id feed s s') {other : ConsumerId} {b : Broker}
    (hb : Steady other s.broker b)
    (hspared : ∀ session, s.service.sessions.look id = some session →
      id ≠ other ∧ Spared id s.broker b) :
    Tandem name id feed (s.setBroker b) (s'.setBroker b) :=
  h.called (fun session hs => hb.undisturbed (hspared session hs).1 (hspared session hs).2)
    (Nat.le_of_eq hb.nextId.symm)

/-- What concerns nobody in particular. -/
theorem Tandem.common (h : Tandem name id feed s s') {b : Broker}
    (hb : Steady (id + 1) s.broker b) (hspared : Spared id s.broker b) :
    Tandem name id feed (s.setBroker b) (s'.setBroker b) :=
  h.steady hb fun _ _ => ⟨Nat.ne_of_lt (Nat.lt_succ_self id), hspared⟩

theorem Tandem.recall (h : Tandem name id feed s s') (callers : Table String Caller) :
    Tandem name id feed { s with callers } { s' with callers } :=
  ⟨rfl, h.names, h.strangers, h.old, h.own⟩

/-- Callers are no sessions. -/
theorem Orderly.not_session (ho : s.Orderly) {n : String} {caller : Caller}
    (hc : s.callers.look n = some caller) (session : Session)
    (hs : s.service.sessions.look id = some session) : id ≠ caller.id := by
  rintro rfl
  rw [(ho.callers n caller hc).1] at hs
  cases hs

theorem names_put (t : Table String Client) (n : String) (client : Client) :
    (t.put n client).map (fun (name, client) => (name, client.id)) =
      Table.put (t.map fun (name, client) => (name, client.id)) n client.id := by
  induction t with
  | nil => rfl
  | cons p t ih =>
    simp only [Table.put, List.map_cons]
    split
    · rfl
    · rw [List.map_cons, ih]

/-- A name is given to another session, or has been given to one. -/
theorem Tandem.rename (h : Tandem name id feed s s') (n : String) (client : Client)
    (hid : client.id ≠ id) :
    Tandem name id (if n = name then none else feed) { s with clients := s.clients.put n client }
      { s' with clients := s'.clients.put n client } := by
  obtain ⟨rest, hungUp, hungUp', ht, hclients⟩ := h.own
  refine ⟨h.callers, ?_, fun other hother => ?_, h.old, rest, hungUp, hungUp', ht, fun r hr => ?_⟩
  · have hnames := h.names
    simp only [Scene.names, names_put] at hnames ⊢
    rw [hnames]
  · dsimp only
    rw [Table.look_put, Table.look_put]
    split
    · exact ⟨rfl, fun c hc => by cases hc; exact hid⟩
    · rename_i hne
      refine h.strangers other fun he => ?_
      have hfeed := hother he
      rwa [if_neg (fun hn => hne (he.trans hn.symm))] at hfeed
  · split at hr
    · cases hr
    · rename_i hne
      dsimp only
      rw [Table.look_put_of_ne _ _ (Ne.symm hne), Table.look_put_of_ne _ _ (Ne.symm hne)]
      exact hclients r hr

/-- A name stands for the same session in both. -/
theorem Tandem.client (h : Tandem name id feed s s') (n : String) :
    s'.clients.look n = s.clients.look n ∨ ∃ hungUp hungUp',
      s.clients.look n = some ⟨id, true, hungUp⟩ ∧ s'.clients.look n = some ⟨id, false, hungUp'⟩ := by
  obtain ⟨rest, hungUp, hungUp', -, hclients⟩ := h.own
  by_cases hn : n = name
  · cases feed with
    | none => exact .inl (h.strangers n fun _ => rfl).1
    | some r =>
      rw [hn]
      exact .inr ⟨hungUp, hungUp', (hclients r rfl).2⟩
  · exact .inl (h.strangers n fun he => absurd he hn).1

theorem send_feed (s : Scene) (client : Client) (change : Inlet → Inlet) :
    (s.send client change).2 =
      if client.hungUp then s else { s with service := s.service.feed client.id change } := by
  unfold send
  cases client.hungUp with
  | true => rfl
  | false =>
    cases hs : s.service.sessions.look client.id with
    | none => simp [feed_none hs]
    | some session => simp

theorem nextId_feed (s : Service) (id : ConsumerId) (change : Inlet → Inlet) :
    s.broker.nextId ≤ (s.feed id change).broker.nextId :=
  (Leads.reaches (feed_leads s id change)).steps.nextId_le

theorem callStore_broker (s s' : Scene) (h : s'.broker = s.broker) (call : StoreCall)
    (topic : String) (payload : Bytes) : (s'.callStore call topic payload).2 =
      s'.setBroker (s.callStore call topic payload).2.broker := by
  obtain ⟨⟨b', sessions'⟩, callers', clients'⟩ := s'
  obtain rfl : b' = s.broker := h
  have hbroker : Scene.broker ⟨⟨s.broker, sessions'⟩, callers', clients'⟩ = s.broker := rfl
  cases call with
  | insert =>
    simp only [callStore, hbroker]
    cases s.broker.store.insert topic payload s.broker.clock <;> rfl
  | fetchNext =>
    simp only [callStore, hbroker]
    cases s.broker.store.fetchNext topic <;> rfl
  | commit =>
    simp only [callStore, hbroker]
    cases s.broker.store.commit topic <;> rfl
  | requeue =>
    simp only [callStore, hbroker]
    cases s.broker.store.requeue topic <;> rfl
  | close => rfl

theorem callStore_undisturbed (s : Scene) (call : StoreCall) (topic : String) (payload : Bytes)
    (id : ConsumerId) : Undisturbed id s.broker (s.callStore call topic payload).2.broker ∧
      s.broker.nextId ≤ (s.callStore call topic payload).2.broker.nextId := by
  obtain ⟨store, he | he⟩ := s.callStore_cases call topic payload <;>
  · rw [he]
    exact ⟨⟨rfl, fun hmem => hmem, fun hspan => hspan⟩, Nat.le_refl _⟩

/-- Whoever is fed under another name is another session. -/
theorem Tandem.stranger (h : Tandem name id feed s s') {n : String}
    (hn : feed.isSome → decide (n = name) = false) : s'.clients.look n = s.clients.look n ∧
      ∀ client, s.clients.look n = some client → client.id ≠ id := by
  refine h.strangers n fun he => ?_
  cases feed with
  | none => rfl
  | some rest => simpa [he] using hn rfl

theorem Tandem.sent (h : Tandem name id feed s s') {client : Client} (hid : client.id ≠ id)
    (change : Inlet → Inlet) :
    Tandem name id feed (s.send client change).2 (s'.send client change).2 := by
  rw [send_feed, send_feed]
  cases client.hungUp with
  | true => exact h
  | false => exact h.serve (fun ht => ht.feed_other hid change) (nextId_feed _ client.id change)

theorem Tandem.perform_next (h : Tandem name id feed s s') (ho : s.Orderly) (n : String)
    (cancelled : Bool) : Tandem name id feed (s.perform (.next n cancelled)).2
      (s'.perform (.next n cancelled)).2 := by
  simp only [Scene.perform, h.callers, h.broker, h.pending]
  cases hc : s.callers.look n with
  | none => exact h
  | some caller =>
    dsimp only
    split
    · exact h
    · have hasked := h.steady (steady_ask s.broker caller.id cancelled) fun session hs =>
        ⟨ho.not_session hc session hs, spared_ask (ho.not_session hc session hs) cancelled⟩
      exact hasked.recall _

theorem Tandem.perform_settle (h : Tandem name id feed s s') (ho : s.Orderly) (n : String)
    (verdict : Verdict) : Tandem name id feed (s.perform (.settle n verdict)).2
      (s'.perform (.settle n verdict)).2 := by
  simp only [Scene.perform, h.callers, h.broker]
  cases hc : s.callers.look n with
  | none => exact h
  | some caller =>
    exact h.steady (steady_settle s.broker caller.id verdict) fun session hs =>
      ⟨ho.not_session hc session hs, spared_settle (ho.not_session hc session hs) verdict⟩

theorem Tandem.perform_abort (h : Tandem name id feed s s') (ho : s.Orderly) (n : String) :
    Tandem name id feed (s.perform (.abort n)).2 (s'.perform (.abort n)).2 := by
  simp only [Scene.perform, h.callers, h.broker]
  cases hc : s.callers.look n with
  | none => exact h
  | some caller =>
    exact h.steady (steady_abandon s.broker caller.id) fun session hs =>
      ⟨ho.not_session hc session hs, spared_abandon (ho.not_session hc session hs)⟩

theorem Tandem.perform_drop (h : Tandem name id feed s s') (ho : s.Orderly) (n : String) :
    Tandem name id feed (s.perform (.drop n)).2 (s'.perform (.drop n)).2 := by
  simp only [Scene.perform, h.callers, h.broker]
  cases hc : s.callers.look n with
  | none => exact h
  | some caller =>
    have hsteady : Steady caller.id s.broker (s.broker.abandon caller.id) := steady_abandon ..
    have hgone : ∀ session, s.service.sessions.look id = some session →
        Undisturbed id s.broker ((s.broker.abandon caller.id).release caller.id) := by
      intro session hs
      have hne := ho.not_session hc session hs
      exact (hsteady.undisturbed hne (spared_abandon hne)).trans (undisturbed_release hne)
    have hcalled := h.called hgone (by rw [nextId_release, hsteady.nextId])
    exact hcalled.recall _

/-- A name stands for the same consumer or session in both. -/
theorem Tandem.perform_cancel (h : Tandem name id feed s s') (ho : s.Orderly) (n : String) :
    Tandem name id feed (s.perform (.cancel n)).2 (s'.perform (.cancel n)).2 := by
  have hstopped : ∀ who, Tandem name id feed { s with service := s.service.cancelSession who }
      { s' with service := s'.service.cancelSession who } := fun who =>
    h.serve (fun ht => ht.cancelSession who)
      (Leads.reaches (cancelSession_leads s.service who)).steps.nextId_le
  simp only [Scene.perform, h.callers, h.broker]
  cases hc : s.callers.look n with
  | some caller =>
    dsimp only
    split
    · exact h.steady (steady_cancel s.broker caller.id) fun session hs =>
        ⟨ho.not_session hc session hs, spared_cancel (ho.not_session hc session hs)⟩
    · exact h
  | none =>
    rcases h.client n with he | ⟨hungUp, hungUp', he, he'⟩
    · rw [he]
      cases s.clients.look n with
      | none => exact h
      | some client => exact (hstopped client.id).recall s.callers
    · rw [he, he']
      exact (hstopped id).recall s.callers

theorem Tandem.perform_deafen (h : Tandem name id feed s s') (n : String) :
    Tandem name id feed (s.perform (.deafen n)).2 (s'.perform (.deafen n)).2 := by
  have hdeafened : ∀ who, Tandem name id feed { s with service := s.service.deafen who }
      { s' with service := s'.service.deafen who } := fun who =>
    h.serve (fun ht => ht.deafen who) (by rw [deafen_broker]; exact Nat.le_refl _)
  simp only [Scene.perform]
  rcases h.client n with he | ⟨hungUp, hungUp', he, he'⟩
  · rw [he]
    cases s.clients.look n with
    | none => exact h
    | some client => exact hdeafened client.id
  · rw [he, he']
    exact hdeafened id

theorem Tandem.perform_session (h : Tandem name id feed s s') (topic n : String) (chunked : Bool) :
    Tandem name id (if n = name then none else feed) (s.perform (.session topic n chunked)).2
      (s'.perform (.session topic n chunked)).2 := by
  have hopened := h.serve
    (fun ht => ht.openSession h.old topic
      (if chunked then .chunks [] [] false else .commands [] false) none)
    (Leads.reaches (openSession_leads s.service topic
      (if chunked then .chunks [] [] false else .commands [] false) none)).steps.nextId_le
  have hrenamed := hopened.rename n { id := s.broker.nextId, chunked } (Nat.ne_of_gt h.old)
  simp only [Scene.perform]
  have hnext : (s'.service.openSession topic
      (if chunked then .chunks [] [] false else .commands [] false) none).1 = s.broker.nextId :=
    congrArg Broker.nextId h.broker
  rw [hnext]
  exact hrenamed

/-- Nothing comes to the session under the name of another. -/
theorem Tandem.perform_input (h : Tandem name id feed s s') {a : Action} {n : String}
    (hinput : a.input? = some n) (ha : feed.isSome → a.feeds name = false) :
    Tandem name id feed (s.perform a).2 (s'.perform a).2 := by
  cases a with
  | command n | bytes n | fail n =>
    obtain ⟨hlook, hid⟩ := h.stranger ha
    simp only [Scene.perform, hlook]
    cases hclient : s.clients.look n with
    | none => exact h
    | some client =>
      dsimp only
      split <;> first | exact h | exact h.sent (hid client hclient) _
  | hangUp n =>
    obtain ⟨hlook, hid⟩ := h.stranger ha
    simp only [Scene.perform, hlook]
    cases hclient : s.clients.look n with
    | none => exact h
    | some client =>
      dsimp only
      split
      · exact h
      · have hfed := h.serve (fun ht => ht.feed_other (hid client hclient) Inlet.close)
          (nextId_feed _ client.id _)
        have hrenamed := hfed.rename n { client with hungUp := true } (hid client hclient)
        have hsame : (if n = name then none else feed) = feed := by
          split
          · rename_i hn
            cases feed with
            | none => rfl
            | some rest => simpa [Action.feeds, hn] using ha rfl
          · rfl
        rw [hsame] at hrenamed
        exact hrenamed
  | _ => cases hinput

theorem Tandem.perform_store (h : Tandem name id feed s s') (call : StoreCall) (topic : String)
    (payload : Bytes) : Tandem name id feed (s.perform (.store call topic payload)).2
      (s'.perform (.store call topic payload)).2 := by
  have hself := callStore_broker s s rfl call topic payload
  have hother := callStore_broker s s' h.broker call topic payload
  obtain ⟨hleft, hn⟩ := s.callStore_undisturbed call topic payload id
  simp only [Scene.perform]
  rw [hother]
  exact hself ▸ h.called (fun _ _ => hleft) hn

/-- What is asked of both scenes leaves them in tandem, if it does not feed the session. -/
theorem Tandem.perform (h : Tandem name id feed s s') (ho : s.Orderly) {a : Action}
    (ha : feed.isSome → a.feeds name = false) :
    Tandem name id (if a.opens name then none else feed) (s.perform a).2 (s'.perform a).2 := by
  cases a with
  | publish topic payload =>
    simp only [Scene.perform, h.broker]
    exact h.common (steady_publish _ topic payload) (spared_publish _ topic payload id)
  | notify topic reason =>
    simp only [Scene.perform, h.broker]
    exact h.common (steady_notify _ topic reason) (spared_notify _ topic reason id)
  | shutdown =>
    simp only [Scene.perform, h.broker]
    exact h.common (steady_shutdown _) (spared_shutdown _ id)
  | fault call fault =>
    simp only [Scene.perform, h.broker]
    exact h.called (fun _ _ => ⟨rfl, fun hmem => hmem, fun hspan => hspan⟩) (Nat.le_refl _)
  | subscribe topic n =>
    simp only [Scene.perform, h.broker, h.callers]
    have hjoined := h.called (fun _ _ => undisturbed_subscribe h.old topic) (Nat.le_succ _)
    exact hjoined.recall _
  | next n cancelled => exact h.perform_next ho n cancelled
  | settle n verdict => exact h.perform_settle ho n verdict
  | cancel n => exact h.perform_cancel ho n
  | abort n => exact h.perform_abort ho n
  | drop n => exact h.perform_drop ho n
  | session topic n chunked =>
    simp only [Action.opens, decide_eq_true_eq]
    exact h.perform_session topic n chunked
  | command | bytes | fail | hangUp => exact h.perform_input rfl ha
  | deafen n => exact h.perform_deafen n
  | store call topic payload => exact h.perform_store call topic payload
  | idle => exact h

theorem drain_orderly (ho : s.Orderly) : Orderly { s with service := s.service.drain } ∧
    s.broker.nextId ≤ s.service.drain.broker.nextId := by
  have htasks : ∀ {t : Service}, Tasks s.service t →
      Orderly { s with service := t } ∧ s.broker.nextId ≤ t.broker.nextId := by
    intro t ht
    induction ht with
    | refl => exact ⟨ho, Nat.le_refl _⟩
    | tail _ htask ih =>
      obtain ⟨who, taken, hd, rfl⟩ := htask
      obtain ⟨ho', hn⟩ := (Happens.task hd).orderly ih.1
      exact ⟨ho', Nat.le_trans ih.2 hn⟩
  exact htasks (tasks_drain s.service)

theorem step_orderly (ho : s.Orderly) (t : Step) :
    (s.step t).2.Orderly ∧ s.broker.nextId ≤ (s.step t).2.broker.nextId := by
  obtain ⟨ho', hn⟩ := (Happens.act s t.action).orderly ho
  unfold step
  dsimp only
  split
  · exact ⟨ho', hn⟩
  · exact (drain_orderly ho').imp_right (Nat.le_trans hn)

theorem Tandem.drain (h : Tandem name id feed s s') (ho : s.Orderly) :
    Tandem name id feed { s with service := s.service.drain }
      { s' with service := s'.service.drain } := by
  exact h.serve (fun ht => ht.drain) (drain_orderly ho).2

/-- The session has been fed, or its input has been hung up. -/
theorem Tandem.refeed {rest rest' : Bytes} {hungUp hungUp' : Bool} {t t' : Service}
    (h : Tandem name id (some rest) s s') (ht : Service.Tandem id rest' hungUp hungUp' t t')
    (hold : s.broker.nextId ≤ t.broker.nextId) :
    Tandem name id (some rest')
      { s with service := t, clients := s.clients.put name ⟨id, true, hungUp⟩ }
      { s' with service := t', clients := s'.clients.put name ⟨id, false, hungUp'⟩ } := by
  refine ⟨h.callers, ?_, fun other hother => ?_, Nat.lt_of_lt_of_le h.old hold, rest', hungUp,
    hungUp', ht, fun r hr => ?_⟩
  · have hnames := h.names
    simp only [Scene.names, names_put] at hnames ⊢
    rw [hnames]
  · have hne : other ≠ name := fun he => nomatch hother he
    dsimp only
    rw [Table.look_put_of_ne _ _ hne, Table.look_put_of_ne _ _ hne]
    exact h.strangers other fun he => absurd he hne
  · cases hr
    exact ⟨rfl, Table.look_put_self .., Table.look_put_self ..⟩

/-- All commands of a chunk come before tasks run. -/
theorem runSteps_commands (hc : s.clients.look name = some ⟨id, false, false⟩) (c : Command)
    (cs : List Command) : s.runSteps (commandSteps name (c :: cs)) =
      { s with service := (s.service.feed id (Inlet.pushCommands (c :: cs))).drain } := by
  have hperform : ∀ {s : Scene} (c : Command), s.clients.look name = some ⟨id, false, false⟩ →
      (s.perform (.command name c)).2 =
        { s with service := s.service.feed id (·.pushCommand (.ok c)) } := by
    intro s c hc
    simp [Scene.perform, hc, send_feed]
  induction cs generalizing s c with
  | nil =>
    simp only [commandSteps, runSteps, List.foldl_cons, List.foldl_nil, step, hperform c hc]
    rfl
  | cons c' cs ih =>
    have hrest := ih (s := { s with service := s.service.feed id (·.pushCommand (.ok c)) }) hc c'
    rw [feed_feed] at hrest
    simp only [commandSteps, runSteps, List.foldl_cons, step, hperform c hc] at hrest ⊢
    exact hrest

/-- A chunk comes in the place of the commands that it completes. -/
theorem Tandem.bytes {rest rest' octets : Bytes} {cs : List Command}
    (h : Tandem name id (some rest) s s') (ho : s.Orderly) (hr : s.broker.ready = [])
    (hy : Command.Yields (rest ++ octets) cs rest')
    (htaken : (s.perform (.bytes name octets)).1 ≠ .gone) :
    Tandem name id (some rest') (s.step ⟨.bytes name octets, false⟩).2
      (s'.runSteps (commandSteps name cs)) := by
  obtain ⟨_, hungUp, hungUp', ht, hclients⟩ := h.own
  obtain ⟨rfl, hc, hc'⟩ := hclients rest rfl
  have hopen : hungUp = false ∧ (s.service.sessions.look id).isSome := by
    simp only [Scene.perform, hc, send, if_true] at htaken
    cases hungUp with
    | true => simp at htaken
    | false =>
      cases hs : s.service.sessions.look id with
      | none => simp [hs] at htaken
      | some session => exact ⟨rfl, rfl⟩
  obtain ⟨rfl, halive⟩ := hopen
  have hstep : (s.step ⟨.bytes name octets, false⟩).2 = { s with
      service := (s.service.feed id (·.pushChunk (.data octets))).drain } := by
    simp [step, Scene.perform, hc, send_feed]
  have hn : s.broker.nextId ≤
      (s.service.feed id (·.pushChunk (.data octets))).drain.broker.nextId := by
    have hstepped := (step_orderly ho ⟨.bytes name octets, false⟩).2
    rw [hstep] at hstepped
    exact hstepped
  rw [hstep, ← Table.put_look hc]
  cases cs with
  | nil =>
    have hvain := ht.feed_vain hr fun i i' hm => hm.fed_on hy
    have hfed := h.refeed hvain hn
    rw [Table.put_look hc'] at hfed
    exact hfed
  | cons c cs =>
    obtain rfl := ht.open halive
    have hfed := h.refeed (ht.feed fun i i' hm => hm.fed_on hy).drain hn
    rw [Table.put_look hc'] at hfed
    rw [runSteps_commands hc']
    exact hfed

/-- The transport fails in both. -/
theorem Tandem.fail {rest : Bytes} (h : Tandem name id (some rest) s s') (hr : s.broker.ready = [])
    (error : ReadError) : Tandem name id (some rest) (s.perform (.fail name error)).2
      (s'.perform (.fail name (.lost transportReason))).2 := by
  obtain ⟨_, hungUp, hungUp', ht, hclients⟩ := h.own
  obtain ⟨rfl, hc, hc'⟩ := hclients rest rfl
  have hfailed := ht.finish hr (·.pushChunk (.lost transportReason))
    (·.pushCommand (.error (.lost transportReason))) hungUp hungUp'
    (by rintro rfl rfl i i' hm; exact hm.failed_on transportReason)
    (by rintro rfl rfl i i' hm; exact hm.hides.2.1 _) (fun ho => ⟨ho, fun ho' => ho'⟩)
  have hn : s.broker.nextId ≤ (if hungUp then s.service else
      s.service.feed id (·.pushChunk (.lost transportReason))).broker.nextId := by
    split
    · exact Nat.le_refl _
    · exact nextId_feed ..
  have hfed := h.refeed hfailed hn
  rw [Table.put_look hc, Table.put_look hc'] at hfed
  have hstep : (s.perform (.fail name error)).2 =
      { s with service := (if hungUp then s.service else
        s.service.feed id (·.pushChunk (.lost transportReason))) } := by
    cases hungUp <;> simp [Scene.perform, hc, send_feed]
  have hstep' : (s'.perform (.fail name (.lost transportReason))).2 =
      { s' with service := (if hungUp' then s'.service else
        s'.service.feed id (·.pushCommand (.error (.lost transportReason)))) } := by
    cases hungUp' <;> simp [Scene.perform, hc', send_feed]
  rwa [hstep, hstep']

/-- The input is hung up, between two commands or inside one. -/
theorem Tandem.hangUp {rest : Bytes} (h : Tandem name id (some rest) s s')
    (hr : s.broker.ready = []) :
    Tandem name id (some rest) (s.perform (.hangUp name)).2
      (s'.perform (if rest.all Command.isSpace = false then .fail name .truncated
        else .hangUp name)).2 := by
  obtain ⟨_, hungUp, hungUp', ht, hclients⟩ := h.own
  obtain ⟨rfl, hc, hc'⟩ := hclients rest rfl
  have hn : s.broker.nextId ≤
      (if hungUp then s.service else s.service.feed id Inlet.close).broker.nextId := by
    split
    · exact Nat.le_refl _
    · exact nextId_feed ..
  have hstep : (s.perform (.hangUp name)).2 =
      { s with
        service := if hungUp then s.service else s.service.feed id Inlet.close
        clients := s.clients.put name ⟨id, true, true⟩ } := by
    cases hungUp with
    | true => simp [Scene.perform, hc, Table.put_look hc]
    | false => simp [Scene.perform, hc]
  rw [hstep]
  cases hb : rest.all Command.isSpace with
  | true =>
    have hclosed := ht.finish hr Inlet.close Inlet.close true true
      (by rintro rfl rfl i i' hm; exact hm.closed hb)
      (by rintro rfl rfl i i' hm; exact hm.hides.2.2) (fun _ => ⟨rfl, fun _ => rfl⟩)
    have hstep' : (s'.perform (.hangUp name)).2 =
        { s' with
          service := if hungUp' then s'.service else s'.service.feed id Inlet.close
          clients := s'.clients.put name ⟨id, false, true⟩ } := by
      cases hungUp' with
      | true => simp [Scene.perform, hc', Table.put_look hc']
      | false => simp [Scene.perform, hc']
    rw [if_neg (show ¬ true = false by simp), hstep']
    exact h.refeed hclosed hn
  | false =>
    have hbroken := ht.finish hr Inlet.close (·.pushCommand (.error .truncated)) true hungUp'
      (by rintro rfl rfl i i' hm; exact hm.broken hb)
      (by rintro rfl rfl i i' hm; exact hm.hides.2.1 _) (fun _ => ⟨rfl, fun ho => ho⟩)
    have hstep' : (s'.perform (.fail name .truncated)).2 =
        { s' with service := (if hungUp' then s'.service else
          s'.service.feed id (·.pushCommand (.error .truncated))) } := by
      cases hungUp' <;> simp [Scene.perform, hc', send_feed]
    have hfed := h.refeed hbroken hn
    rw [Table.put_look hc'] at hfed
    rw [if_pos (show false = false from rfl), hstep']
    exact hfed

theorem step_nothing {a : Action} (ha : (s.perform a).2 = s) (hr : s.broker.ready = []) :
    (s.step ⟨a, false⟩).2 = s := by
  have hdrain : s.service.drain = s.service := drain_idle hr
  simp only [step, ha, Bool.false_eq_true, if_false, hdrain]

/-- What does not feed the session stands in for itself. -/
theorem standIn_other {a : Action} (ha : feed.isSome → a.feeds name = false) :
    standIn name s feed a = some ([⟨a, false⟩], if a.opens name then none else feed) := by
  cases feed with
  | none => cases a <;> simp [standIn]
  | some rest =>
    have hother := ha rfl
    cases a <;> simp_all [standIn, Action.feeds, Action.opens]

theorem Tandem.step_bytes {rest octets : Bytes} {steps : List Step} {feed' : Option Bytes}
    (h : Tandem name id (some rest) s s') (ho : s.Orderly) (hr : s.broker.ready = [])
    (hsteps : standIn name s (some rest) (.bytes name octets) = some (steps, feed')) :
    Tandem name id feed' (s.step ⟨.bytes name octets, false⟩).2 (s'.runSteps steps) := by
  simp only [standIn] at hsteps
  rw [if_neg (by simp)] at hsteps
  split at hsteps
  · rename_i hgone
    cases hsteps
    obtain ⟨_, hungUp, hungUp', -, hclients⟩ := h.own
    have hc := (hclients rest rfl).2.1
    have hnothing : (s.perform (.bytes name octets)).2 = s := by
      simp only [Scene.perform, hc, send, if_true] at hgone ⊢
      split at hgone <;> simp_all
    rw [step_nothing hnothing hr]
    exact h
  · rename_i htaken
    obtain ⟨⟨cs, rest'⟩, hsplit, he⟩ := Option.map_eq_some_iff.mp hsteps
    cases he
    exact h.bytes ho hr (Command.split_iff.mp hsplit) htaken

/-- An action in the one scene, and the steps that stand in for it in the other. -/
theorem Tandem.step {a : Action} {steps : List Step} {feed' : Option Bytes}
    (h : Tandem name id feed s s') (ho : s.Orderly) (hr : s.broker.ready = [])
    (hsteps : standIn name s feed a = some (steps, feed')) :
    Tandem name id feed' (s.step ⟨a, false⟩).2 (s'.runSteps steps) := by
  have hdrained : ∀ {feed a'}, Tandem name id feed (s.perform a).2 (s'.perform a').2 →
      Tandem name id feed (s.step ⟨a, false⟩).2 (s'.runSteps [⟨a', false⟩]) := fun hp =>
    hp.drain ((Happens.act s a).orderly ho).1
  by_cases ha : feed.isSome → a.feeds name = false
  · rw [standIn_other ha] at hsteps
    cases hsteps
    exact hdrained (h.perform ho ha)
  · obtain ⟨hsome, hfeeds⟩ := Classical.not_imp.mp ha
    obtain ⟨rest, rfl⟩ := Option.isSome_iff_exists.mp hsome
    cases a with
    | bytes n octets =>
      obtain rfl : n = name := by simpa [Action.feeds] using hfeeds
      exact h.step_bytes ho hr hsteps
    | command n c =>
      obtain rfl : n = name := by simpa [Action.feeds] using hfeeds
      simp only [standIn, if_true] at hsteps
      cases hsteps
      obtain ⟨_, hungUp, hungUp', -, hclients⟩ := h.own
      rw [step_nothing (by simp [Scene.perform, (hclients rest rfl).2.1]) hr]
      exact h
    | fail n e =>
      obtain rfl : n = name := by simpa [Action.feeds] using hfeeds
      simp only [standIn, if_true] at hsteps
      cases hsteps
      exact hdrained (h.fail hr e)
    | hangUp n =>
      obtain rfl : n = name := by simpa [Action.feeds] using hfeeds
      simp only [standIn, true_and] at hsteps
      cases hsteps
      exact hdrained (h.hangUp hr)
    | _ => exact absurd rfl hfeeds

theorem Tandem.atTime (h : Tandem name id feed s s') (t : Int64) :
    Tandem name id feed (s.atTime t) (s'.atTime t) := by
  simp only [Scene.atTime, h.broker]
  exact h.called (fun _ _ => ⟨rfl, fun hmem => hmem, fun hspan => hspan⟩) (Nat.le_refl _)

/-- A name is kept, or it is given to a new session. -/
theorem Performed.clients {a : Action} {n : String} {client : Client} (hp : Performed s a s')
    (h : s'.clients.look n = some client) :
    (∃ before, s.clients.look n = some before ∧ client.id = before.id) ∨
    client.id = s.broker.nextId ∧ s.broker.nextId < s'.broker.nextId := by
  cases hp with
  | opened topic =>
    rw [Table.look_put] at h
    split at h
    · cases h
      refine .inr ⟨rfl, ?_⟩
      change s.broker.nextId < ((s.broker.subscribe topic).2.enqueue _).nextId
      rw [enqueue_nextId]
      exact Nat.lt_succ_self _
    · exact .inl ⟨client, h, rfl⟩
  | @hungUp _ before hc =>
    rw [Table.look_put] at h
    split at h
    · rename_i hn
      cases h
      exact .inl ⟨before, hn ▸ hc, rfl⟩
    · exact .inl ⟨client, h, rfl⟩
  | stored call topic payload =>
    obtain ⟨store, he | he⟩ := s.callStore_cases call topic payload <;>
    · rw [he] at h
      exact .inl ⟨client, h, rfl⟩
  | _ => exact .inl ⟨client, h, rfl⟩

/-- Between actions nothing is left to run, and the sessions' names stand for sessions that have
been there. -/
structure Rested (s : Scene) : Prop where
  orderly : s.Orderly
  ready : s.broker.ready = []
  known : ∀ n client, s.clients.look n = some client → client.id < s.broker.nextId

theorem Rested.atTime (h : s.Rested) (t : Int64) : (s.atTime t).Rested :=
  ⟨((Happens.tick s t).orderly h.orderly).1, h.ready, h.known⟩

theorem Rested.step (h : s.Rested) (a : Action) : (s.step ⟨a, false⟩).2.Rested := by
  have hn := (drain_orderly ((Happens.act s a).orderly h.orderly).1).2
  refine ⟨(step_orderly h.orderly _).1, drain_done _, fun n client hc => ?_⟩
  refine Nat.lt_of_lt_of_le ?_ hn
  rcases (s.performed a).clients hc with ⟨before, hb, he⟩ | ⟨he, hnew⟩
  · rw [he]
    exact Nat.lt_of_lt_of_le (h.known n before hb) ((Happens.act s a).orderly h.orderly).2
  · rw [he]
    exact hnew

theorem rested_run (flushOnInsert : Bool) (actions : List (Int64 × Action)) :
    ((start flushOnInsert).runPromptly actions).Rested := by
  have hrun : ∀ {s : Scene}, s.Rested → (s.runPromptly actions).Rested := by
    intro s h
    induction actions generalizing s with
    | nil => exact h
    | cons event actions ih => exact ih ((h.atTime event.1).step event.2)
  exact hrun ⟨(onward_fresh .refl).1, rfl, fun n client hc => nomatch hc⟩

/-- After any number of actions, and of what stands in for them. -/
theorem Tandem.run {actions : List (Int64 × Action)} {batches : List (Int64 × List Step)}
    (h : Tandem name id feed s s') (hs : s.Rested)
    (hb : standInAll name s feed actions = some batches) (n : Nat) :
    ∃ feed', Tandem name id feed' (s.runPromptly (actions.take n))
      (s'.runBatches (batches.take n)) := by
  induction actions generalizing s s' feed batches n with
  | nil =>
    cases hb
    simp only [List.take_nil]
    exact ⟨feed, h⟩
  | cons event actions ih =>
    obtain ⟨t, a⟩ := event
    simp only [standInAll] at hb
    obtain ⟨⟨steps, feed'⟩, hsteps, hlater⟩ := Option.bind_eq_some_iff.mp hb
    obtain ⟨later, hrest, rfl⟩ := Option.map_eq_some_iff.mp hlater
    cases n with
    | zero => exact ⟨feed, h⟩
    | succ n =>
      have hrested := hs.atTime t
      have hstep := (h.atTime t).step hrested.orderly hrested.ready hsteps
      exact ih hstep (hrested.step a) hrest n

/-- A session that reads chunks has been opened in the one scene, and one that reads commands in the
other. -/
theorem Rested.opened (h : s.Rested) (topic name : String) :
    Tandem name s.broker.nextId (some []) (s.step ⟨.session topic name true, false⟩).2
      (s.step ⟨.session topic name false, false⟩).2 := by
  refine Tandem.drain ?_ ((Happens.act s (.session topic name true)).orderly h.orderly).1
  have hyields : Command.Takes [] [] [] [] := .last (.stop rfl)
  refine ⟨rfl, ?_, fun other hother => ?_, ?_, [], false, false, ⟨rfl, fun k hk => ?_, ?_, ?_⟩,
    fun r hr => ?_⟩
  · simp only [Scene.names, names_put]
  · have hne : other ≠ name := fun he => nomatch hother he
    simp only [Table.look_put_of_ne _ _ hne]
    refine ⟨trivial, fun client hc => ?_⟩
    exact Nat.ne_of_lt (h.known other client hc)
  · change s.broker.nextId < ((s.broker.subscribe topic).2.enqueue _).nextId
    rw [enqueue_nextId]
    exact Nat.lt_succ_self _
  · exact (Table.look_put_of_ne _ _ hk).trans (Table.look_put_of_ne _ _ hk).symm
  · refine (congrArg₂ (Paired [] false false) (Table.look_put_self ..)
      (Table.look_put_self ..)).mpr ?_
    have hfed : Inlet.Mirrors [] false false (.chunks [] [] false) (.commands [] false) :=
      .fed rfl rfl hyields
    exact .running hfed
  · exact fun session hlook hp hr => absurd (mem_enqueue _ _) hr
  · cases hr
    exact ⟨rfl, Table.look_put_self .., Table.look_put_self ..⟩

/-- Nobody can tell two scenes from each other but for the input of one session. -/
structure Alike (id : ConsumerId) (s s' : Scene) : Prop where
  /-- The store, the registry, all consumers with what they wait for and hold, the tasks that are to
  run, and the journal of all that has happened. -/
  broker : s'.broker = s.broker
  /-- What consumers and sessions got, under their names, in any part of the journal. -/
  outputs : ∀ j, s'.outputs j = s.outputs j
  statuses : s'.statuses = s.statuses
  running : s'.running = s.running
  others : ∀ other, other ≠ id → s'.service.sessions.look other = s.service.sessions.look other
  own : (s'.service.sessions.look id).map (fun session => (session.position, session.deaf)) =
    (s.service.sessions.look id).map fun session => (session.position, session.deaf)

theorem nameOf?_names (s : Scene) (id : ConsumerId) :
    s.nameOf? id = match s.callers.find? (·.2.id == id) with
      | some (name, _) => some name
      | none => (s.names.find? (·.2 == id)).map (·.1) := by
  simp only [nameOf?, Scene.names, List.find?_map, Option.map_map]
  rfl

theorem running_names (s : Scene) : s.running =
    (s.names.filterMap fun (name, id) =>
      if (s.service.sessions.look id).isSome then some name else none).mergeSort (· ≤ ·) := by
  simp only [running, Scene.names, List.filterMap_map]
  rfl

theorem Tandem.alike (h : Tandem name id feed s s') : Alike id s s' := by
  obtain ⟨rest, hungUp, hungUp', ht, -⟩ := h.own
  have hbroker : s'.broker = s.broker := h.broker
  have hnames : ∀ id, s'.nameOf? id = s.nameOf? id := by
    intro id
    rw [nameOf?_names, nameOf?_names, h.callers, h.names]
  have hlook : ∀ k, (s'.service.sessions.look k).isSome = (s.service.sessions.look k).isSome := by
    intro k
    by_cases hk : k = id
    · rw [hk]
      rcases ht.own.cases with ⟨hs, hs'⟩ | ⟨session, inlet, hs, hs', -⟩ <;> simp [hs, hs']
    · rw [ht.others k hk]
  refine ⟨hbroker, fun j => ?_, ?_, ?_, ht.others, ?_⟩
  · simp only [outputs, hnames]
  · simp only [statuses, status, h.callers, hbroker]
  · simp only [running_names, h.names, hlook]
  · rcases ht.own.cases with ⟨hs, hs'⟩ | ⟨session, inlet, hs, hs', -⟩ <;> simp [hs, hs']

/-- A session has been opened after these actions. -/
def openedAfter (flushOnInsert : Bool) (before : List (Int64 × Action)) (time : Int64)
    (topic name : String) (chunked : Bool) : Scene :=
  ((((start flushOnInsert).runPromptly before).atTime time).step
    ⟨.session topic name chunked, false⟩).2

/-- A session that reads chunks is a session that reads the commands which these complete: with the
steps that stand in for what feeds it, after each action all is the same to everybody, wherever the
chunks have been cut and whatever else goes on. -/
theorem byte_session_refines (flushOnInsert : Bool) (before : List (Int64 × Action)) (time : Int64)
    (topic name : String) (later : List (Int64 × Action)) {batches : List (Int64 × List Step)}
    (h : standInAll name (openedAfter flushOnInsert before time topic name true) (some []) later =
      some batches) (n : Nat) :
    Alike ((start flushOnInsert).runPromptly before).broker.nextId
      ((openedAfter flushOnInsert before time topic name true).runPromptly (later.take n))
      ((openedAfter flushOnInsert before time topic name false).runBatches (batches.take n)) := by
  have hrested := (rested_run flushOnInsert before).atTime time
  obtain ⟨feed, htandem⟩ := (hrested.opened topic name).run (hrested.step _) h n
  exact htandem.alike

/-- Chunks cut inside commands, two commands that come while the session waits for a message, and an
input that is hung up inside a command. -/
def cutAnywhere : List (Int64 × Action) :=
  [(2, .bytes "s" [34, 73, 78, 73]), (3, .bytes "s" [84, 34, 32, 34, 65, 67]),
   (4, .bytes "s" [75, 34, 34, 78, 65, 67, 75, 34, 34, 120]), (5, .publish "t" [1]),
   (6, .publish "t" [2]), (7, .hangUp "s")]

/-- What stands in for it. -/
def cutNowhere : List (Int64 × List Step) :=
  [(2, []), (3, [⟨.command "s" .init, false⟩]),
   (4, [⟨.command "s" .ack, true⟩, ⟨.command "s" .nack, false⟩]), (5, [⟨.publish "t" [1], false⟩]),
   (6, [⟨.publish "t" [2], false⟩]), (7, [⟨.fail "s" .truncated, false⟩])]

theorem cutAnywhere_refines :
    standInAll "s" (openedAfter true [(0, .subscribe "t" "c")] 1 "t" "s" true) (some [])
      cutAnywhere = some cutNowhere ∧
    Alike 1 ((openedAfter true [(0, .subscribe "t" "c")] 1 "t" "s" true).runPromptly cutAnywhere)
      ((openedAfter true [(0, .subscribe "t" "c")] 1 "t" "s" false).runBatches cutNowhere) ∧
    ((openedAfter true [(0, .subscribe "t" "c")] 1 "t" "s" false).runBatches
      cutNowhere).broker.frames 1 =
        [.message [1], .message [2], .message [2], .ofError .decodingCommand] := by
  have hsteps : standInAll "s" (openedAfter true [(0, .subscribe "t" "c")] 1 "t" "s" true) (some [])
      cutAnywhere = some cutNowhere := by decide +kernel
  exact ⟨hsteps, byte_session_refines true [(0, .subscribe "t" "c")] 1 "t" "s" cutAnywhere hsteps 6,
    by decide +kernel⟩

end Scene

end TopicQueue

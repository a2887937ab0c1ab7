import Mathlib.Data.List.Sort
import TopicQueue.Proofs.Offers
import TopicQueue.Proofs.Releases

namespace TopicQueue

namespace Broker

/-- These, and no others, have asked for a message of the topic and not got it yet; they come in the
order of registration, which is that of their numbers. -/
def Line (b : Broker) (topic : String) (ws : List ConsumerId) : Prop :=
  ws.Pairwise (· < ·) ∧
    ∀ id, id ∈ ws ↔ ∃ c, b.consumer? id = some c ∧ c.topic = topic ∧ c.wait ≠ .idle

theorem Line.same {b b' : Broker} {topic : String} {ws : List ConsumerId} (h : b.Line topic ws)
    (hsame : ∀ id, (∃ c, b.consumer? id = some c ∧ c.topic = topic ∧ c.wait ≠ .idle) ↔
      ∃ c, b'.consumer? id = some c ∧ c.topic = topic ∧ c.wait ≠ .idle) : b'.Line topic ws :=
  ⟨h.1, fun id => (h.2 id).trans (hsame id)⟩

/-- To give up a call that there is not is to do nothing. -/
theorem abandon_idle {b : Broker} {id : ConsumerId} {c : Consumer} (hready : b.ready = [])
    (hc : b.consumer? id = some c) (hw : c.wait = .idle) : b.abandon id = b := by
  obtain ⟨store, faults, topics, consumers, nextId, ready, journal, span, clock⟩ := b
  cases hready
  simp [abandon, hc, hw]

end Broker

namespace Service
open Broker

variable {s s' : Service} {id : ConsumerId}

/-- Whoever is gone stays gone, however many tasks run. -/
theorem Tasks.gone (h : Tasks s s') (hs : s.sessions.look id = none)
    (hc : s.broker.consumer? id = none) :
    s'.sessions.look id = none ∧ s'.broker.consumer? id = none := by
  induction h with
  | refl => exact ⟨hs, hc⟩
  | tail _ htask ih =>
    obtain ⟨other, taken, hd, rfl⟩ := htask
    refine ⟨task_sessions_none hd ih.1, ?_⟩
    have hholder := holder_none.mpr ih.2
    rw [← (task_spares hd (.inr ⟨hholder, ih.1⟩)).holder] at hholder
    exact holder_none.mp hholder

end Service

namespace Scene
open Broker

variable {s s₀ : Scene} {topic : String} {payload : Bytes} {rest : List Item} {w : ConsumerId}
  {ws : List ConsumerId} {c : Consumer} {a : Action}

/-- What has come of a message at the head of its topic, when these have waited for it and all tasks
have run; the notes since then, the latest first, are given. -/
structure Dispatched (s : Scene) (left : Service) (topic : String) (payload : Bytes)
    (rest : List Item) (ws : List ConsumerId) (news : History) : Prop where
  /-- The first delivery is to the first that can be reached, of the message at the head. Those
  before it have passed it on, one to the next, and have ended. -/
  delivered : ∀ w, ws.find? (fun w => !s.isDeaf w) = some w → ∃ after before : History,
    news = after ++ s.delivery w payload :: before ∧ before.Quiet ∧
      ∀ id next, [id, next] <:+: ws.takeWhile s.isDeaf ++ [w] → before.PassedOn topic id next
  ended : ∀ id ∈ ws.takeWhile s.isDeaf, .ended id ∈ news ∧ left.sessions.look id = none ∧
    left.broker.consumer? id = none
  /-- If none can be reached, the message is still there, and nobody has claimed it. -/
  kept : (∀ w ∈ ws, s.isDeaf w = true) → news.Quiet ∧
    left.broker.store.queue topic = ⟨.ok payload :: rest, false⟩

theorem not_infix_singleton (id next w : ConsumerId) : ¬ [id, next] <:+: [w] := by
  intro h
  simpa using h.length_le

theorem Dispatched.delivered_first {left : Service} {after before : History}
    (hd : s.isDeaf w = false) (hq : before.Quiet) :
    Dispatched s left topic payload rest (w :: ws) (after ++ s.delivery w payload :: before) where
  delivered := by
    intro w' hw
    rw [List.find?_cons_of_pos (by simpa using hd)] at hw
    cases hw
    refine ⟨after, before, rfl, hq, ?_⟩
    rw [List.takeWhile_cons_of_neg (by simpa using hd)]
    exact fun id next h => absurd h (not_infix_singleton id next w)
  ended := by
    rw [List.takeWhile_cons_of_neg (by simpa using hd)]
    simp
  kept h := by
    rw [h w List.mem_cons_self] at hd
    cases hd

theorem Dispatched.kept_last {left : Service} {new : History} (hd : s.isDeaf w = true)
    (hq : new.Quiet) (hended : .ended w ∈ new) (hs : left.sessions.look w = none)
    (hc : left.broker.consumer? w = none)
    (hqueue : left.broker.store.queue topic = ⟨.ok payload :: rest, false⟩) :
    Dispatched s left topic payload rest [w] new where
  delivered w' hw := by simp [hd] at hw
  ended id hm := by
    have hid : id = w := by simpa [hd] using hm
    exact hid ▸ ⟨hended, hs, hc⟩
  kept _ := ⟨hq, hqueue⟩

/-- One that cannot be reached has come first. -/
theorem Dispatched.passed {left : Service} {new news : History} {next : ConsumerId}
    (h : Dispatched s left topic payload rest (next :: ws) news) (hd : s.isDeaf w = true)
    (hq : new.Quiet) (hended : .ended w ∈ new) (hpassed : new.PassedOn topic w next)
    (hs : left.sessions.look w = none) (hc : left.broker.consumer? w = none) :
    Dispatched s left topic payload rest (w :: next :: ws) (news ++ new) where
  delivered := by
    intro w' hw
    rw [List.find?_cons_of_neg (by simpa using hd)] at hw
    obtain ⟨after, before, rfl, hbefore, hall⟩ := h.delivered w' hw
    refine ⟨after, before ++ new, by simp, hbefore.append hq, ?_⟩
    rw [List.takeWhile_cons_of_pos hd, List.cons_append]
    intro id other hpair
    rcases List.infix_cons_iff.mp hpair with hfirst | hlater
    · obtain ⟨rfl, hfirst⟩ := List.cons_prefix_cons.mp hfirst
      have hother : other = next := by
        cases hnext : s.isDeaf next with
        | true => simpa [hnext] using hfirst
        | false =>
          rw [List.find?_cons_of_pos (by simpa using hnext)] at hw
          cases hw
          simpa [hnext] using hfirst
      exact hother ▸ hpassed.later before
    · exact (hall id other hlater).earlier new
  ended := by
    rw [List.takeWhile_cons_of_pos hd]
    intro id hm
    rcases List.mem_cons.mp hm with rfl | hm
    · exact ⟨List.mem_append_right _ hended, hs, hc⟩
    · obtain ⟨hm, hgone⟩ := h.ended id hm
      exact ⟨List.mem_append_left _ hm, hgone⟩
  kept hall := by
    obtain ⟨hquiet, hqueue⟩ := h.kept fun w hm => hall w (List.mem_cons_of_mem _ hm)
    exact ⟨hquiet.append hq, hqueue⟩

/-- Notes from before that tell of no delivery. -/
theorem Dispatched.since {left : Service} {new news : History}
    (h : Dispatched s left topic payload rest ws news) (hq : new.Quiet) :
    Dispatched s left topic payload rest ws (news ++ new) where
  delivered := by
    intro w hw
    obtain ⟨after, before, rfl, hbefore, hall⟩ := h.delivered w hw
    exact ⟨after, before ++ new, by simp, hbefore.append hq,
      fun id next hpair => (hall id next hpair).earlier new⟩
  ended id hm := by
    obtain ⟨hmem, hgone⟩ := h.ended id hm
    exact ⟨List.mem_append_left _ hmem, hgone⟩
  kept hall := by
    obtain ⟨hquiet, hqueue⟩ := h.kept hall
    exact ⟨hquiet.append hq, hqueue⟩

theorem isDeaf_same (h : s.service.sessions.look w = s₀.service.sessions.look w) :
    s.isDeaf w = s₀.isDeaf w := by
  simp only [isDeaf, h]

theorem delivery_same (h : s.service.sessions.look w = s₀.service.sessions.look w) :
    s.delivery w payload = s₀.delivery w payload := by
  simp only [delivery, h]

theorem Offered.dispatched_first (h : Offered s topic payload rest w ws)
    (hd : s.isDeaf w = false)
    (hsame : s.service.sessions.look w = s₀.service.sessions.look w) :
    ∃ news, s.service.drain.broker.notes = news ++ s.broker.notes ∧
      Dispatched s₀ s.service.drain topic payload rest (w :: ws) news := by
  obtain ⟨service, after, before, htask, hquiet, hnotes⟩ := h.delivered hd
  obtain ⟨later, hlater⟩ := (Service.tasks_drain service).grows
  rw [Service.drain_task htask]
  rw [isDeaf_same hsame] at hd
  rw [delivery_same hsame] at hnotes
  refine ⟨(later ++ after) ++ s₀.delivery w payload :: before, ?_, .delivered_first hd hquiet⟩
  rw [← hlater, hnotes]
  simp

/-- Whoever is woken for the message, it goes to the first that can be reached. -/
theorem Offered.dispatched (h : Offered s topic payload rest w ws)
    (hdistinct : (w :: ws).Pairwise (· < ·))
    (hsame : ∀ id ∈ w :: ws, s.service.sessions.look id = s₀.service.sessions.look id) :
    ∃ news, s.service.drain.broker.notes = news ++ s.broker.notes ∧
      Dispatched s₀ s.service.drain topic payload rest (w :: ws) news := by
  induction ws generalizing s w with
  | nil =>
    have hfirst := hsame w List.mem_cons_self
    cases hd : s.isDeaf w with
    | false => exact h.dispatched_first hd hfirst
    | true =>
      obtain ⟨service, new, htask, hnotes, hquiet, hended, hsessions, hgone, hleft, -⟩ :=
        h.declined hd
      have hleft := hleft rfl
      rw [Service.drain_task htask, Service.drain_idle hleft.ready]
      refine ⟨new, hnotes, .kept_last (isDeaf_same hfirst ▸ hd) hquiet hended ?_ hgone hleft.queue⟩
      rw [hsessions, Table.look_remove_self]
  | cons next ws ih =>
    have hfirst := hsame w List.mem_cons_self
    cases hd : s.isDeaf w with
    | false => exact h.dispatched_first hd hfirst
    | true =>
      obtain ⟨service, new, htask, hnotes, hquiet, hended, hsessions, hgone, -, hnext⟩ :=
        h.declined hd
      obtain ⟨hoffered, hpassed⟩ := hnext next ws rfl
      have hremoved : service.sessions.look w = none := by
        rw [hsessions, Table.look_remove_self]
      have hothers : ∀ id ∈ next :: ws,
          service.sessions.look id = s₀.service.sessions.look id := by
        intro id hm
        have hne : id ≠ w := Nat.ne_of_gt (List.rel_of_pairwise_cons hdistinct hm)
        rw [hsessions, Table.look_remove_of_ne _ hne, hsame id (List.mem_cons_of_mem w hm)]
      obtain ⟨news, hnews, hdispatched⟩ := ih hoffered hdistinct.of_cons hothers
      obtain ⟨hs, hc⟩ := (Service.tasks_drain service).gone hremoved hgone
      rw [Service.drain_task htask]
      refine ⟨news ++ new, ?_, hdispatched.passed (isDeaf_same hfirst ▸ hd) hquiet hended hpassed
        hs hc⟩
      rw [hnews, List.append_assoc, ← hnotes]
      rfl

/-- What leaves the first entry of a topic to whoever waits for it: a message comes to a topic that is
not claimed, or a plain consumer that holds the topic's message acks it, nacks it or is dropped. -/
inductive Frees (s : Scene) (topic : String) : Action → Prop where
  | publish (payload : Bytes) (h : s.broker.store.claim? topic = none) :
      Frees s topic (.publish topic payload)
  | settle {name caller} (hc : s.callers.look name = some caller)
      (hh : s.broker.Holds caller.id topic) (v : Verdict) : Frees s topic (.settle name v)
  | drop {name caller} (hc : s.callers.look name = some caller)
      (hh : s.broker.Holds caller.id topic) : Frees s topic (.drop name)

/-- A broker in which something has just become of a topic, and nobody has been told. -/
structure Untold (s : Scene) (topic : String) (b : Broker) : Prop where
  isOpen : b.store.closed = false
  unarmed : b.faults.Unarmed
  ready : b.ready = []
  sleepers : b.sleepers topic = s.broker.sleepers topic
  asleep : ∀ id ∈ s.broker.sleepers topic, b.consumer? id = s.broker.consumer? id
  notes : ∃ new : History, b.notes = new ++ s.broker.notes ∧ new.Quiet

/-- Whoever sleeps when all tasks have run has not been cancelled. -/
theorem Reachable.sleeper_free (hs : s.Reachable) (hready : s.broker.ready = [])
    (hc : s.broker.consumer? w = some c) (hparked : c.wait = .parked) : c.cancelled = false := by
  by_contra hcancel
  have hqueued := hs.heedful w c hc hparked (by simpa using hcancel)
  rw [hready] at hqueued
  cases hqueued

/-- The first that sleeps is told. -/
theorem Untold.notify {b : Broker} (h : Untold s topic b) (hs : s.Reachable)
    (hready : s.broker.ready = []) (hq : b.store.queue topic = ⟨.ok payload :: rest, false⟩)
    (hw : s.broker.sleepers topic = w :: ws) (reason : WakeReason) :
    (b.notify topic reason).Stocked topic payload rest [w] ws ∧
    (∃ c, (b.notify topic reason).consumer? w = some c ∧ c.topic = topic ∧ c.wait = .woken ∧
      c.cancelled = false) ∧
    ∃ new : History, (b.notify topic reason).notes = new ++ s.broker.notes ∧ new.Quiet := by
  have hmem : w ∈ s.broker.sleepers topic := by simp [hw]
  obtain ⟨c, hc, ht, hparked⟩ := hs.watched.1.mem_sleepers.mp hmem
  have hfree := hs.sleeper_free hready hc hparked
  have hstocked : b.Stocked topic payload rest [] (w :: ws) :=
    ⟨h.isOpen, h.unarmed, hq, h.ready, h.sleepers.trans hw⟩
  obtain ⟨hleft, hwoken, hnotes⟩ := hstocked.notify (hw ▸ hs.ordered.sleepers_sorted topic)
    ((h.asleep w hmem).trans hc) hparked reason
  obtain ⟨new, hnew, hquiet⟩ := h.notes
  refine ⟨hleft, ⟨_, hwoken, ht, rfl, hfree⟩, .woke w topic reason :: new, ?_, .cons rfl hquiet⟩
  rw [hnotes, hnew]
  rfl

theorem untold_publish (hs : s.Reachable) (hready : s.broker.ready = [])
    (ho : s.broker.store.closed = false) (hu : s.broker.faults.Unarmed) (topic : String)
    (payload : Bytes) :
    ∃ b, Untold s topic b ∧ (∀ id, b.consumer? id = s.broker.consumer? id) ∧
      (b.store.queue topic).claimed = (s.broker.store.queue topic).claimed ∧
      s.broker.publish topic payload = (.ok (), b.notify topic .publish) := by
  have haccounted := hs.accounted .refl
  have hinsert : s.broker.store.insert topic payload s.broker.clock =
      .ok (s.broker.store.append topic (StoredEntry.encode ⟨payload, s.broker.clock⟩)) := by
    simp [Store.insert, ho]
  obtain ⟨-, hq⟩ := Store.Sound.inserted haccounted.sound haccounted.clock hinsert
  have hcall := call_unarmed hu .insert topic fun store =>
    (store.insert topic payload s.broker.clock).map ((), ·)
  rw [hinsert] at hcall
  refine ⟨_, ?_, ?_, ?_, by rw [publish, hcall]; rfl⟩
  · exact ⟨ho, hu, hready, rfl, fun _ _ => rfl, [.stored topic payload, .called .insert topic none],
      rfl, .cons rfl (.cons rfl (by simp [History.Quiet]))⟩
  · exact fun _ => rfl
  · exact (congrArg Queue.claimed (congrFun hq topic)).trans (by rw [Function.update_self]; rfl)

/-- Whoever holds a message has no call, when all tasks have run. -/
theorem Reachable.holder_idle (hs : s.Reachable) (hready : s.broker.ready = [])
    {id : ConsumerId} (hc : s.broker.consumer? id = some c) (hh : c.holding = true) :
    c.wait = .idle := by
  have hempty := hs.ordered.empty id c hc
  have hqueued := hs.watched.1.queued id c hc
  cases hw : c.wait with
  | idle => rfl
  | asked => simp [hw, hready] at hqueued
  | parked | woken => simp [hw, hh] at hempty

theorem untold_settle (hs : s.Reachable) (hready : s.broker.ready = [])
    (ho : s.broker.store.closed = false) (hu : s.broker.faults.Unarmed) {id : ConsumerId}
    (hc : s.broker.consumer? id = some c) (hh : c.holding = true) (v : Verdict) :
    ∃ b, Untold s c.topic b ∧ (b.store.queue c.topic).claimed = false ∧
      b.consumer? id = some { c with holding := false } ∧
      s.broker.settle id v = (.ok (), b.notify c.topic v.reason) := by
  have haccounted := hs.accounted .refl
  have hidle := hs.holder_idle hready hc hh
  have hdown : c.waiting = false := hs.watched.1.unflagged hc (by simp [hidle])
  have hclaimed : (s.broker.store.queue c.topic).claimed = true :=
    (haccounted.owned id c.topic (holds_iff.mp ⟨c, hc, rfl, hh⟩)).1
  obtain ⟨store, hstore, hopen⟩ := Store.apply_claimed ho hclaimed v
  obtain ⟨-, -, hq⟩ := Store.Sound.applied haccounted.sound hstore
  refine ⟨_, ?_, ?_, consumer?_became_self .., settle_taken hc hh hu hstore⟩
  · refine ⟨hopen, hu, hready, sleepers_became hc hdown _ _ _ hdown, ?_, ?_⟩
    · intro other hm
      refine consumer?_became ?_ ..
      rintro rfl
      obtain ⟨d, hd, -, hparked⟩ := hs.watched.1.mem_sleepers.mp hm
      rw [hc] at hd
      cases hd
      rw [hidle] at hparked
      cases hparked
    · refine ⟨[v.record id c.topic, .called v.call c.topic none], rfl, ?_⟩
      cases v <;> simp [History.Quiet, Note.isDelivery, Verdict.record]
  · exact (congrArg Queue.claimed (congrFun hq c.topic)).trans (by rw [Function.update_self])

/-- The head of a topic that is not claimed. -/
theorem Reachable.head (hs : s.Reachable) (hfree : (s.broker.store.queue topic).claimed = false)
    (hn : s.broker.store.tree topic ≠ []) :
    ∃ payload rest, s.broker.store.queue topic = ⟨.ok payload :: rest, false⟩ := by
  obtain ⟨stored, hstored, -⟩ := (hs.accounted .refl).balanced topic
  have hentries : (s.broker.store.queue topic).entries = stored.map .ok := hstored
  cases stored with
  | nil => exact absurd (List.map_eq_nil_iff.mp hentries) hn
  | cons payload stored =>
    refine ⟨payload, stored.map .ok, ?_⟩
    rw [← hfree]
    exact congrArg (Queue.mk · _) hentries

/-- What is told is that the topic has a message that nobody has claimed. -/
theorem Untold.stocked {b : Broker} {s' : Scene} (h : Untold s topic b) (hs : s.Reachable)
    (hready : s.broker.ready = []) (hfree : (b.store.queue topic).claimed = false)
    (hw : s.broker.sleepers topic = w :: ws) (hs' : s'.Reachable)
    (hstore : s'.broker.store = b.store) (hn : s'.broker.store.tree topic ≠ [])
    (reason : WakeReason) :
    ∃ payload rest, (b.notify topic reason).Stocked topic payload rest [w] ws ∧
      (∃ c, (b.notify topic reason).consumer? w = some c ∧ c.topic = topic ∧ c.wait = .woken ∧
        c.cancelled = false) ∧
      ∃ new : History, (b.notify topic reason).notes = new ++ s.broker.notes ∧ new.Quiet := by
  rw [← hstore] at hfree
  obtain ⟨payload, rest, hq⟩ := hs'.head hfree hn
  rw [hstore] at hq
  exact ⟨payload, rest, h.notify hs hready hq hw reason⟩

/-- Whatever frees a topic wakes the first that sleeps for it. -/
theorem Frees.offered (h : Frees s topic a) (hs : s.Reachable) (hready : s.broker.ready = [])
    (ho : s.broker.store.closed = false) (hu : s.broker.faults.Unarmed)
    (hw : s.broker.sleepers topic = w :: ws)
    (hn : (s.perform a).2.broker.store.tree topic ≠ []) :
    ∃ payload rest, Offered (s.perform a).2 topic payload rest w ws ∧
      (∃ new : History, (s.perform a).2.broker.notes = new ++ s.broker.notes ∧ new.Quiet) ∧
      (s.perform a).2.service.sessions = s.service.sessions := by
  cases h with
  | publish payload hfree =>
    have hs' : (s.perform (.publish topic payload)).2.Reachable := hs.act rfl
    obtain ⟨b, hb, -, hclaimed, hpublish⟩ := untold_publish hs hready ho hu topic payload
    have hfreed : (b.store.queue topic).claimed = false := by
      rw [hclaimed, Store.claimed_queue, hfree, Option.isSome_none]
    simp only [perform, hpublish] at hs' hn ⊢
    obtain ⟨payload, rest, hstocked, hwoken, hnotes⟩ :=
      hb.stocked hs hready hfreed hw hs' (store_notify ..) hn .publish
    exact ⟨payload, rest, ⟨hs', hstocked, hwoken⟩, hnotes, rfl⟩
  | @settle name caller hcaller hh v =>
    have hs' : (s.perform (.settle name v)).2.Reachable := hs.act rfl
    obtain ⟨c, hc, rfl, hh⟩ := hh
    obtain ⟨b, hb, hfreed, -, hsettle⟩ := untold_settle hs hready ho hu hc hh v
    simp only [perform, hcaller, hsettle] at hs' hn ⊢
    obtain ⟨payload, rest, hstocked, hwoken, hnotes⟩ :=
      hb.stocked hs hready hfreed hw hs' (store_notify ..) hn v.reason
    exact ⟨payload, rest, ⟨hs', hstocked, hwoken⟩, hnotes, rfl⟩
  | @drop name caller hcaller hh =>
    have hs' : (s.perform (.drop name)).2.Reachable := hs.act rfl
    obtain ⟨c, hc, rfl, hh⟩ := hh
    obtain ⟨b, hb, hfreed, hleft, hsettle⟩ := untold_settle hs hready ho hu hc hh .nack
    have hidle := hs.holder_idle hready hc hh
    have hdrop : (s.broker.abandon caller.id).release caller.id =
        ((b.notify c.topic .nack).note (.releaseRequeued caller.id c.topic)).forget caller.id
          c.topic := by
      rw [abandon_idle hready hc hidle, release_holding hc hh, hsettle]
      rfl
    simp only [perform, hcaller, hdrop] at hs' hn ⊢
    obtain ⟨payload, rest, hstocked, ⟨d, hd, ht, hwoken, hfree⟩, new, hnew, hquiet⟩ :=
      hb.stocked hs hready hfreed hw hs' (store_notify ..) hn .nack
    have hflag : c.waiting = false := hs.watched.1.unflagged hc (by simp [hidle])
    have hsame : (b.notify c.topic .nack).consumer? caller.id = some { c with holding := false } :=
      (notify_unwaiting ((isWaiting_eq hleft).trans hflag) c.topic .nack).trans hleft
    have hdown : (b.notify c.topic .nack).isWaiting caller.id = false :=
      (isWaiting_eq hsame).trans hflag
    have hne : w ≠ caller.id := by
      rintro rfl
      rw [hsame] at hd
      cases hd
      rw [hidle] at hwoken
      cases hwoken
    refine ⟨payload, rest, ⟨hs', (hstocked.note _).forget hdown c.topic, d, ?_, ht, hwoken, hfree⟩,
      ⟨.deregistered caller.id c.topic :: .releaseRequeued caller.id c.topic :: new, ?_,
        .cons rfl (.cons rfl hquiet)⟩, rfl⟩
    · exact (consumer?_forget hne c.topic).trans hd
    · rw [List.cons_append, List.cons_append, ← hnew]
      rfl

/-- When all tasks have run, those who wait are those who sleep. -/
theorem Reachable.line (hs : s.Reachable) (hready : s.broker.ready = []) (topic : String) :
    s.broker.Line topic (s.broker.sleepers topic) := by
  refine ⟨hs.ordered.sleepers_sorted topic, fun id => ?_⟩
  rw [hs.watched.1.mem_sleepers]
  constructor
  · rintro ⟨c, hc, ht, hw⟩
    exact ⟨c, hc, ht, by simp [hw]⟩
  · rintro ⟨c, hc, ht, hw⟩
    refine ⟨c, hc, ht, ?_⟩
    have hqueued := hs.watched.1.queued id c hc
    cases hwait : c.wait with
    | parked => rfl
    | idle => exact absurd hwait hw
    | asked | woken => simp [hwait, hready] at hqueued

theorem Reachable.sleepers_line (hs : s.Reachable) (hready : s.broker.ready = [])
    (hl : s.broker.Line topic ws) : s.broker.sleepers topic = ws := by
  have hsleepers := hs.line hready topic
  exact hsleepers.1.eq_of_mem_iff hl.1 fun id => (hsleepers.2 id).trans (hl.2 id).symm

/-- Nobody gets anything, and everybody goes on waiting. -/
structure Unmoved (s s' : Scene) (topic : String) (ws : List ConsumerId) : Prop where
  notes : ∃ new : History, s'.broker.notes = new ++ s.broker.notes ∧ new.Quiet
  line : s'.broker.Line topic ws
  sessions : ∀ id, s'.service.sessions.look id = s.service.sessions.look id

theorem step_drains (s : Scene) (a : Action) :
    (s.step ⟨a, false⟩).2 = { (s.perform a).2 with service := (s.perform a).2.service.drain } := rfl

theorem publish_claimed (hs : s.Reachable) (hready : s.broker.ready = [])
    (ho : s.broker.store.closed = false) (hu : s.broker.faults.Unarmed)
    (hl : s.broker.Line topic ws) (hclaimed : (s.broker.store.claim? topic).isSome = true)
    (payload : Bytes) :
    Unmoved s (s.step ⟨.publish topic payload, false⟩).2 topic ws := by
  have hsleepers := hs.sleepers_line hready hl
  have hs' : (s.perform (.publish topic payload)).2.Reachable := hs.act rfl
  obtain ⟨b, hb, hsame, hkept, hpublish⟩ := untold_publish hs hready ho hu topic payload
  obtain ⟨new, hnew, hquiet⟩ := hb.notes
  rw [step_drains]
  simp only [perform, hpublish] at hs' ⊢
  cases ws with
  | nil =>
    obtain ⟨n, hn, he⟩ := notify_unslept (hb.sleepers.trans hsleepers) .publish
    rw [he, Service.drain_idle (s := (s.setBroker (b.note n)).service) hb.ready]
    refine ⟨⟨n :: new, congrArg (n :: ·) hnew, .cons hn hquiet⟩, hl.same fun id => ?_, fun _ => rfl⟩
    rw [← hsame id]
    exact Iff.rfl
  | cons w ws =>
    have hmem : w ∈ s.broker.sleepers topic := by simp [hsleepers]
    obtain ⟨c, hc, rfl, hparked⟩ := hs.watched.1.mem_sleepers.mp hmem
    have hc' : b.consumer? w = some c := (hsame w).trans hc
    have hfree : c.cancelled = false := hs.sleeper_free hready hc hparked
    have hf : b.store.fetchNext c.topic = .ok (none, b.store) := by
      obtain ⟨key, hkey⟩ := Option.isSome_iff_exists.mp (hkept.trans hclaimed)
      simp [Store.fetchNext, hb.isOpen, hkey]
    rw [notify_slept (hb.sleepers.trans hsleepers), wake_parked hb.ready hc' hparked] at hs' ⊢
    obtain ⟨service, new', htask, hquiet', hnew', hidle, hconsumers, hsessions⟩ :=
      hs'.sleeps_again rfl (Table.look_put_self ..) rfl hfree hb.unarmed hf
    change Unmoved s { s with service := Service.drain _ } c.topic _
    rw [Service.drain_task htask, Service.drain_idle hidle]
    refine ⟨⟨new' ++ .woke w c.topic .publish :: new, ?_, hquiet'.append (.cons rfl hquiet)⟩,
      hl.same fun id => ?_, hsessions⟩
    · refine hnew'.trans ?_
      rw [List.append_assoc, List.cons_append, ← hnew]
      rfl
    · change _ ↔ ∃ d, service.broker.consumer? id = some d ∧ d.topic = c.topic ∧ d.wait ≠ .idle
      rw [hconsumers id]
      split
      · rename_i he
        refine iff_of_true ⟨c, he ▸ hc, rfl, by simp [hparked]⟩ ⟨_, rfl, rfl, by simp [Consumer.asleep]⟩
      · rename_i hne
        change _ ↔ ∃ d, Table.look (b.consumers.put w _) id = some d ∧ _
        rw [Table.look_put_of_ne _ _ hne, ← hsame id]
        exact Iff.rfl

/-- When all tasks have run, the store is open and no fault is armed, let these wait for a message of
a topic, in the order of registration. If the topic comes free with a message in it, by a publish or
by the consumer that holds the claim, the first delivery after that is to the first of them that is
not a session whose client cannot be reached, and it is of the message at the head; every such
session before it has passed the message on and ended, and if there are only such sessions, all of
them have ended and the message is at the head still, unclaimed. A publish while the topic is claimed
delivers nothing, and all of them go on waiting. -/
theorem earliest_waiter_served (hs : s.Reachable) (hready : s.broker.ready = [])
    (ho : s.broker.store.closed = false) (hu : s.broker.faults.Unarmed)
    (hl : s.broker.Line topic ws) :
    (∀ a, s.Frees topic a → (s.perform a).2.broker.store.tree topic ≠ [] → ws ≠ [] →
      ∃ payload rest news,
        (s.perform a).2.broker.store.queue topic = ⟨.ok payload :: rest, false⟩ ∧
        (s.step ⟨a, false⟩).2.broker.notes = news ++ s.broker.notes ∧
        Dispatched s (s.step ⟨a, false⟩).2.service topic payload rest ws news) ∧
    ∀ payload, (s.broker.store.claim? topic).isSome = true →
      Unmoved s (s.step ⟨.publish topic payload, false⟩).2 topic ws := by
  have hsleepers := hs.sleepers_line hready hl
  refine ⟨fun a hfrees hn hws => ?_, fun payload hclaimed =>
    publish_claimed hs hready ho hu hl hclaimed payload⟩
  obtain ⟨w, later, rfl⟩ := List.exists_cons_of_ne_nil hws
  obtain ⟨payload, rest, hoffered, ⟨new, hnew, hquiet⟩, hsessions⟩ :=
    hfrees.offered hs hready ho hu hsleepers hn
  have hsame : ∀ id ∈ w :: later,
      (s.perform a).2.service.sessions.look id = s.service.sessions.look id :=
    fun id _ => by rw [hsessions]
  obtain ⟨news, hnews, hdispatched⟩ := hoffered.dispatched hl.1 hsame
  refine ⟨payload, rest, news ++ new, hoffered.stocked.queue, ?_, hdispatched.since hquiet⟩
  rw [List.append_assoc, ← hnew, ← hnews]
  rfl

/-- A session whose client is gone, a plain consumer and another session wait, in this order. -/
def deafFirst : List Step :=
  [⟨.session "t" "a" false, false⟩, ⟨.subscribe "t" "c", false⟩, ⟨.session "t" "b" false, false⟩,
   ⟨.command "b" .init, false⟩, ⟨.next "c" false, false⟩, ⟨.command "a" .init, false⟩,
   ⟨.deafen "a", false⟩]

theorem deafFirst_served :
    (after deafFirst).broker.Line "t" [0, 1, 2] ∧
    (∃ payload rest news,
      ((after deafFirst).perform (.publish "t" [7])).2.broker.store.queue "t" =
        ⟨.ok payload :: rest, false⟩ ∧
      ((after deafFirst).step ⟨.publish "t" [7], false⟩).2.broker.notes =
        news ++ (after deafFirst).broker.notes ∧
      Dispatched (after deafFirst) ((after deafFirst).step ⟨.publish "t" [7], false⟩).2.service "t"
        payload rest [0, 1, 2] news) ∧
    [0, 1, 2].map (after deafFirst).isDeaf = [true, false, false] ∧
    ((after deafFirst).step ⟨.publish "t" [7], false⟩).2.broker.notes.filter Note.isDelivery =
      [.returned 1 (.ok [7])] := by
  have hs : (after deafFirst).Reachable := reachable_after (by decide)
  have hready : (after deafFirst).broker.ready = [] := by decide +kernel
  have hsleepers : (after deafFirst).broker.sleepers "t" = [0, 1, 2] := by decide +kernel
  have hl := hsleepers ▸ hs.line hready "t"
  have hserved := earliest_waiter_served hs hready (by decide +kernel) (fun _ => rfl) hl
  exact ⟨hl, hserved.1 _ (.publish [7] (by decide +kernel)) (by decide +kernel) (by decide),
    by decide +kernel, rfl⟩

end Scene

end TopicQueue

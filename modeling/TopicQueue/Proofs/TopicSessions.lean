import TopicQueue.Proofs.AlikeSessions
import TopicQueue.Proofs.OtherTopics
import TopicQueue.Proofs.Tandem

namespace TopicQueue

namespace Broker

theorem Alike.of_matched {home : ConsumerId → String} {topic : String} {count : Nat} {α : Type}
    {r r' : α × Broker} (h : Matched home topic count r r') :
    Alike (Excerpt home topic count) r r' := by
  obtain ⟨a, h⟩ := h
  exact .mk a h

end Broker

namespace Session
open Broker

variable {home : ConsumerId → String} {topic : String} {id : ConsumerId} {count : Nat}
  {b b' : Broker} {deaf : Bool}

/-- The calls of a session come to the same in both, and what it says is said in both. -/
theorem likeness_excerpt (hid : home id = topic) :
    Likeness (Excerpt home topic count) id (rank home topic id) where
  note h hn := h.note hn hn
  took h _ := h.note rfl rfl
  finished h := h.note rfl rfl
  wrote h _ := h.note_output hid rfl rfl
  ended h := h.note_output hid rfl rfl
  begin h := .of_matched (h.begin hid)
  resume h := .of_matched (h.resume hid)
  settle h v := .of_matched (h.settle hid v)
  release h := h.release hid
  cancelled h := by rw [isCancelled, isCancelled, h.consumers id hid]

/-- A session of the topic runs as it would without other topics. -/
theorem run_matched (h : Excerpt home topic count b b') (hid : home id = topic) (s : Session) :
    Matched home topic count (s.run b id) (s.run b' (rank home topic id)) := by
  obtain ⟨a, b₁, b₁', he, he', h⟩ := ((likeness_excerpt hid).run h s).cases
  rw [he, he']
  exact .mk a h

variable {p p' : Point}

theorem Act.excerpt_other (ha : Act id deaf p p') (h : Excerpt home topic count p.broker b')
    (hid : home id ≠ topic) : Excerpt home topic count p'.broker b' := by
  cases ha with
  | aside n hn => exact h.note_silent (by cases n <;> first | rfl | cases hn)
  | cancelled | pending | unknown | init | lost | unsaid => exact h
  | ended | failed | read => exact h.note_silent rfl
  | @settled _ _ _ _ v _ _ hs | @unsettled _ _ _ _ v _ _ _ hs =>
    have hleft := h.settle_other hid v
    rw [hs] at hleft
    exact hleft
  | begun hb | asleep hb =>
    have hleft := h.begin_other hid
    rw [hb] at hleft
    exact hleft
  | resumed hr | still hr =>
    have hleft := h.resume_other hid
    rw [hr] at hleft
    exact hleft
  | arrived | said =>
    refine h.note_other fun o ho => ?_
    cases ho
    exact hid
  | putBack => exact h.settle_other hid .nack
  | closed =>
    refine (h.release_other hid).note_other fun o ho => ?_
    cases ho
    exact hid

theorem Acts.excerpt_other (ha : Acts id deaf p p') (h : Excerpt home topic count p.broker b')
    (hid : home id ≠ topic) : Excerpt home topic count p'.broker b' := by
  induction ha with
  | refl => exact h
  | tail _ hact ih => exact hact.excerpt_other ih hid

/-- A session of another topic runs to no effect here. -/
theorem run_other (h : Excerpt home topic count b b') (hid : home id ≠ topic) (s : Session) :
    Excerpt home topic count (s.run b id).2 b' := by
  have hran := s.run_ran b id
  generalize s.run b id = r at hran ⊢
  cases hran with
  | paused _ _ ha | gone _ ha => exact ha.excerpt_other h hid

end Session

namespace Service
open Broker

/-- The second service has of one topic what the first has, its sessions included. -/
structure Excerpt (home : ConsumerId → String) (topic : String) (count : Nat) (s s' : Service) :
    Prop where
  broker : Broker.Excerpt home topic count s.broker s'.broker
  sessions : ∀ id, home id = topic → s'.sessions.look (rank home topic id) = s.sessions.look id

namespace Excerpt

variable {home : ConsumerId → String} {topic other : String} {id : ConsumerId} {count : Nat}
  {count' : Nat} {s s' next : Service} {b b' : Broker}

theorem setBroker (h : Excerpt home topic count s s')
    (hb : Broker.Excerpt home topic count' b b') :
    Excerpt home topic count' { s with broker := b } { s' with broker := b' } :=
  ⟨hb, h.sessions⟩

/-- A session of the topic comes, changes or goes. -/
theorem replace (h : Excerpt home topic count s s') (hid : home id = topic)
    (left : Option Session) (hb : Broker.Excerpt home topic count' b b') :
    Excerpt home topic count' ⟨b, left.elim (s.sessions.remove id) (s.sessions.put id)⟩
      ⟨b', left.elim (s'.sessions.remove (rank home topic id))
        (s'.sessions.put (rank home topic id))⟩ where
  broker := hb
  sessions who hwho := by
    dsimp only
    rw [look_elim, look_elim, h.sessions who hwho]
    simp only [rank_inj hwho hid]

theorem replace_other (h : Excerpt home topic count s s') (hid : home id ≠ topic)
    (left : Option Session) (hb : Broker.Excerpt home topic count' b b') :
    Excerpt home topic count' ⟨b, left.elim (s.sessions.remove id) (s.sessions.put id)⟩
      ⟨b', s'.sessions⟩ where
  broker := hb
  sessions who hwho := by
    have hne : who ≠ id := fun he => hid (he ▸ hwho)
    dsimp only
    rw [look_elim, if_neg hne, h.sessions who hwho]

theorem run (h : Excerpt home topic count s s') (hid : home id = topic) :
    Excerpt home topic count (s.run id) (s'.run (rank home topic id)) := by
  have hlook := h.sessions id hid
  cases hs : s.sessions.look id with
  | none =>
    rw [hs] at hlook
    simp only [Service.run, hs, hlook]
    exact h.setBroker (h.broker.runNext hid)
  | some session =>
    rw [hs] at hlook
    have hspan : Broker.Excerpt home topic count { s.broker with span := session.span }
        { s'.broker with span := session.span } := { h.broker with }
    obtain ⟨left, b, b', he, he', hran⟩ := (Session.run_matched hspan hid session).cases
    rw [run_session hs he, run_session hlook he']
    exact h.replace hid left { hran with }

theorem run_other (h : Excerpt home topic count s s') (hid : home id ≠ topic) :
    Excerpt home topic count (s.run id) s' := by
  cases hs : s.sessions.look id with
  | none =>
    simp only [Service.run, hs]
    exact h.setBroker (h.broker.runNext_other hid)
  | some session =>
    have hspan : Broker.Excerpt home topic count { s.broker with span := session.span } s'.broker :=
      { h.broker with }
    have hran := Session.run_other hspan hid session
    cases hr : session.run { s.broker with span := session.span } id with
    | mk left b =>
      rw [hr] at hran
      rw [run_session hs hr]
      exact h.replace_other hid left { hran with }

/-- The next task runs. If it is one of the topic, then it is the next without other topics too;
otherwise there is nothing to do. -/
theorem task (h : Excerpt home topic count s s') (ht : Task s next) :
    ∃ next', Tasks s' next' ∧ Excerpt home topic count next next' := by
  obtain ⟨id, taken, hd, rfl⟩ := ht
  obtain ⟨rest, hready, hbroker, hsessions⟩ := dequeue_some hd
  obtain rfl : taken = { s with broker := { s.broker with ready := rest } } := by
    obtain ⟨b, sessions⟩ := taken
    simp_all
  have hqueue := h.broker.ready
  rw [hready] at hqueue
  by_cases hid : home id = topic
  · simp only [hid, List.filter_cons, decide_true, if_true, List.map_cons] at hqueue
    have hd' : s'.dequeue = some (rank home topic id, { s' with broker := { s'.broker with
        ready := (rest.filter (home · = topic)).map (rank home topic) } }) := by
      simp [dequeue, hqueue]
    refine ⟨_, .single ⟨_, _, hd', rfl⟩, run ?_ hid⟩
    exact h.setBroker { h.broker with ready := rfl }
  · simp only [hid, List.filter_cons, decide_false, Bool.false_eq_true, if_false] at hqueue
    refine ⟨s', .refl, run_other ?_ hid⟩
    exact h.setBroker { h.broker with ready := hqueue }

theorem tasks (h : Excerpt home topic count s s') (ht : Tasks s next) :
    ∃ next', Tasks s' next' ∧ Excerpt home topic count next next' := by
  induction ht with
  | refl => exact ⟨s', .refl, h⟩
  | tail _ htask ih =>
    obtain ⟨before', hbefore, hexcerpt⟩ := ih
    obtain ⟨next', htasks, hnext⟩ := hexcerpt.task htask
    exact ⟨next', hbefore.trans htasks, hnext⟩

theorem drain (h : Excerpt home topic count s s') :
    Excerpt home topic count s.drain s'.drain := by
  obtain ⟨next', ht, hnext⟩ := h.tasks (tasks_drain s)
  have hready : next'.broker.ready = [] := by rw [hnext.broker.ready, drain_done]; rfl
  rwa [ht.drained hready]

theorem openSession (h : Excerpt home topic count s s') (hhome : home count = topic)
    (inlet : Inlet) (span : Option RequestSpan) :
    Excerpt home topic (count + 1) (s.openSession topic inlet span).2
      (s'.openSession topic inlet span).2 := by
  obtain rfl := h.broker.nextId
  have hjoined := (h.broker.subscribe hhome).enqueue hhome
  have hopened := h.replace hhome (some { inlet, span }) hjoined
  rwa [← h.broker.nextId'] at hopened

theorem openSession_other (h : Excerpt home topic count s s') (hhome : home count = other)
    (hne : other ≠ topic) (inlet : Inlet) (span : Option RequestSpan) :
    Excerpt home topic (count + 1) (s.openSession other inlet span).2 s' := by
  obtain rfl := h.broker.nextId
  have hid : home s.broker.nextId ≠ topic := hhome.trans_ne hne
  have hjoined := (h.broker.subscribe_other hhome hne).enqueue_other hid
  exact h.replace_other hid (some { inlet, span }) hjoined

theorem feed (h : Excerpt home topic count s s') (hid : home id = topic)
    (change : Inlet → Inlet) :
    Excerpt home topic count (s.feed id change) (s'.feed (rank home topic id) change) := by
  unfold Service.feed
  rw [h.sessions id hid]
  split
  · exact h
  · rename_i session hs
    have hfed := h.replace hid (some { session with inlet := change session.inlet }) h.broker
    split
    · exact hfed.setBroker (h.broker.enqueue hid)
    · exact hfed

theorem feed_other (h : Excerpt home topic count s s') (hid : home id ≠ topic)
    (change : Inlet → Inlet) : Excerpt home topic count (s.feed id change) s' := by
  unfold Service.feed
  split
  · exact h
  · rename_i session hs
    have hfed := h.replace_other hid (some { session with inlet := change session.inlet }) h.broker
    split
    · exact hfed.setBroker (h.broker.enqueue_other hid)
    · exact hfed

theorem deafen (h : Excerpt home topic count s s') (hid : home id = topic) :
    Excerpt home topic count (s.deafen id) (s'.deafen (rank home topic id)) := by
  unfold Service.deafen
  rw [h.sessions id hid]
  split
  · exact h
  · rename_i session hs
    exact h.replace hid (some { session with deaf := true }) h.broker

theorem deafen_other (h : Excerpt home topic count s s') (hid : home id ≠ topic) :
    Excerpt home topic count (s.deafen id) s' := by
  unfold Service.deafen
  split
  · exact h
  · rename_i session hs
    exact h.replace_other hid (some { session with deaf := true }) h.broker

theorem cancelSession (h : Excerpt home topic count s s') (hid : home id = topic) :
    Excerpt home topic count (s.cancelSession id) (s'.cancelSession (rank home topic id)) := by
  unfold Service.cancelSession
  rw [h.sessions id hid]
  split
  · exact h
  · dsimp only
    split
    · exact h.setBroker ((h.broker.cancel hid).enqueue hid)
    · exact h.setBroker (h.broker.cancel hid)

theorem cancelSession_other (h : Excerpt home topic count s s') (hid : home id ≠ topic) :
    Excerpt home topic count (s.cancelSession id) s' := by
  unfold Service.cancelSession
  split
  · exact h
  · dsimp only
    split
    · exact h.setBroker ((h.broker.cancel_other hid).enqueue_other hid)
    · exact h.setBroker (h.broker.cancel_other hid)

end Excerpt

end Service

end TopicQueue

import TopicQueue.Proofs.Excerpts

namespace TopicQueue

namespace Store

/-- What a call in another topic leaves. -/
structure Beside (topic : String) (s s' : Store) : Prop where
  sound : s'.Sound
  closed : s'.closed = s.closed
  tree : s'.tree topic = s.tree topic
  claim : s'.claim? topic = s.claim? topic

variable {topic other : String} {s s' s₁ : Store} {payload : Bytes} {now : Int}

theorem Excerpt.beside (h : Excerpt topic s s') (hs : Beside topic s s₁) : Excerpt topic s₁ s' where
  sound := hs.sound
  sound' := h.sound'
  closed := h.closed.trans hs.closed.symm
  values := by rw [hs.tree, h.values]
  claimed := by rw [hs.claim, h.claimed]

theorem Sound.beside_insert (h : s.Sound) (hne : other ≠ topic)
    (hs : s.insert other payload now = .ok s₁) : Beside topic s s₁ := by
  obtain ⟨htree, hclaim⟩ := insert_other hs hne.symm
  obtain ⟨-, rfl⟩ := insert_ok hs
  exact ⟨h.append .., rfl, htree, hclaim⟩

theorem Sound.beside_fetchNext (h : s.Sound) (hne : other ≠ topic) {payload? : Option Bytes}
    (hs : s.fetchNext other = .ok (payload?, s₁)) : Beside topic s s₁ := by
  obtain ⟨htree, hclaim⟩ := fetchNext_other hs hne.symm
  cases payload? with
  | none =>
    obtain ⟨rfl, -⟩ := fetchNext_none hs
    exact ⟨h, rfl, rfl, rfl⟩
  | some payload =>
    obtain ⟨-, -, key, value, rest, ht, -, rfl⟩ := fetchNext_some hs
    have hfirst : (s.tree other).first? = some (key, value) := by rw [ht]; rfl
    exact ⟨h.claim hfirst, rfl, htree, hclaim⟩

theorem Sound.beside_apply (h : s.Sound) (hne : other ≠ topic) {v : Verdict}
    (hs : v.apply other s = .ok s₁) : Beside topic s s₁ := by
  cases v with
  | ack =>
    obtain ⟨htree, hclaim⟩ := commit_other hs hne.symm
    obtain ⟨-, key, hk, rfl⟩ := commit_ok hs
    obtain ⟨value, rest, ht⟩ := h.claimed_first other key hk
    exact ⟨h.dropClaimed ht, rfl, htree, hclaim⟩
  | nack =>
    obtain ⟨htree, hclaim⟩ := requeue_other hs hne.symm
    obtain ⟨-, key, -, rfl⟩ := requeue_ok hs
    exact ⟨h.release other, rfl, htree, hclaim⟩

end Store

namespace Broker.Excerpt

variable {home : ConsumerId → String} {topic other : String} {id : ConsumerId} {count : Nat}
  {b b' : Broker} {c : Consumer} {n : Note}

-- What calls in other topics are made of.

theorem note_other (h : Excerpt home topic count b b')
    (hn : ∀ o, n.output? = some o → home o.1 ≠ topic) :
    Excerpt home topic count (b.note n) b' :=
  { h with
    outputs := by
      rw [h.outputs]
      cases ho : n.output? with
      | none => simp [Broker.outputs, Broker.note, ho]
      | some o => simp [Broker.outputs, Broker.note, ho, hn o ho] }

theorem note_silent (h : Excerpt home topic count b b') (hn : n.output? = none) :
    Excerpt home topic count (b.note n) b' :=
  h.note_other fun o ho => by
    rw [hn] at ho
    cases ho

theorem setConsumer_other (h : Excerpt home topic count b b') (hid : home id ≠ topic)
    (hc : c.topic = home id) : Excerpt home topic count (b.setConsumer id c) b' :=
  { h with
    consumers := fun who hwho => by
      have hne : who ≠ id := fun he => hid (he ▸ hwho)
      rw [consumer?_setConsumer, if_neg hne, h.consumers who hwho]
    homes := fun who d hd => by
      rw [consumer?_setConsumer] at hd
      split at hd
      · cases hd
        rename_i hwho
        rw [hc, hwho]
      · exact h.homes who d hd }

theorem enqueue_other (h : Excerpt home topic count b b') (hid : home id ≠ topic) :
    Excerpt home topic count (b.enqueue id) b' := by
  unfold Broker.enqueue
  split
  · exact h
  · exact { h with ready := by simp [h.ready, List.filter_append, hid] }

theorem unready_other (h : Excerpt home topic count b b') (hid : home id ≠ topic) :
    Excerpt home topic count { b with ready := b.ready.filter (· != id) } b' :=
  { h with
    ready := by
      dsimp only
      rw [h.ready, List.filter_filter]
      refine congrArg _ (List.filter_congr fun who _ => ?_)
      by_cases hwho : who = id
      · simp [hwho, hid]
      · simp [hwho] }

theorem call_other (h : Excerpt home topic count b b') (k : StoreCall) (t : String) {α : Type}
    (act : Store → Except StoreError (α × Store))
    (hact : ∀ a s, act b.store = .ok (a, s) → Store.Beside topic b.store s) :
    Excerpt home topic count (b.call k t act).2 b' := by
  rw [call_unarmed h.unarmed]
  cases hs : act b.store with
  | error e => exact h.note_silent rfl
  | ok r => exact note_silent { h with store := h.store.beside (hact r.1 r.2 hs) } rfl

-- What calls in other topics are.

theorem wake_other (h : Excerpt home topic count b b') (hid : home id ≠ topic) :
    Excerpt home topic count (b.wake id) b' := by
  unfold Broker.wake
  split
  · exact h
  · rename_i c hc
    have hhome := h.homes id c hc
    split
    · exact (h.setConsumer_other hid (by exact hhome)).enqueue_other hid
    · exact h.setConsumer_other hid (by exact hhome)

theorem notify_other (h : Excerpt home topic count b b') (hne : other ≠ topic)
    (reason : WakeReason) : Excerpt home topic count (b.notify other reason) b' := by
  unfold Broker.notify
  split
  · exact h.note_silent rfl
  · rename_i r hr
    split
    · exact h.note_silent rfl
    · rename_i id hf
      have hid : home id ≠ topic :=
        (h.members other r hr id (List.mem_of_find?_eq_some hf)).trans_ne hne
      exact (h.wake_other hid).note_silent rfl

theorem leave_other (h : Excerpt home topic count b b') (hid : home id ≠ topic) :
    Excerpt home topic count (b.leave id) b' := by
  unfold Broker.leave
  split
  · exact h
  · rename_i c hc
    have hhome := h.homes id c hc
    have hset := h.setConsumer_other (c := { c with waiting := false, wait := .idle }) hid hhome
    dsimp only
    split
    · exact hset
    · exact hset.notify_other (hhome.trans_ne hid) .handoff

theorem look_other (h : Excerpt home topic count b b') (hid : home id ≠ topic)
    (hc : c.topic = home id) : Excerpt home topic count (b.look id c).2 b' := by
  cases hcancel : c.cancelled with
  | true =>
    rw [look_cancelled b hcancel]
    exact h.setConsumer_other hid hc
  | false =>
    rw [look_uncancelled b id hcancel]
    have hset := h.setConsumer_other (c := c.alert) hid hc
    have hcall := hset.call_other .fetchNext c.topic (·.fetchNext c.topic) fun _ _ hs =>
      hset.store.sound.beside_fetchNext (hc.trans_ne hid) hs
    generalize (b.setConsumer id c.alert).call .fetchNext c.topic _ = r at hcall ⊢
    obtain ⟨a, b₁⟩ := r
    rcases a with e | - | payload
    · exact hcall.leave_other hid
    · exact hcall
    · have hheld := hcall.setConsumer_other (c := { c.alert with holding := true }) hid hc
      exact (hheld.note_silent rfl).leave_other hid

theorem park_other (h : Excerpt home topic count b b') (hid : home id ≠ topic) :
    Excerpt home topic count (b.park id) b' := by
  unfold Broker.park
  split
  · exact h
  · rename_i c hc
    exact h.setConsumer_other hid (h.homes id c hc)

theorem seek_other (h : Excerpt home topic count b b') (hid : home id ≠ topic) :
    Excerpt home topic count (b.seek id).2 b' := by
  unfold Broker.seek
  split
  · exact h
  · rename_i c hc
    have hlook := h.look_other hid (h.homes id c hc)
    generalize b.look id c = r at hlook ⊢
    obtain ⟨a, b₁⟩ := r
    cases a with
    | some result => exact hlook
    | none =>
      dsimp only
      split
      · have hagain := (hlook.note_silent (n := .woken id c.topic) rfl).look_other hid
          (h.homes id c hc)
        dsimp only at hagain
        generalize Broker.look _ id c = r at hagain ⊢
        obtain ⟨a, b₂⟩ := r
        cases a with
        | some result => exact hagain
        | none => exact hagain.park_other hid
      · exact hlook.park_other hid

theorem begin_other (h : Excerpt home topic count b b') (hid : home id ≠ topic) :
    Excerpt home topic count (b.begin id).2 b' := by
  unfold Broker.begin
  split
  · exact h
  · rename_i c hc
    split
    · exact h.setConsumer_other hid (h.homes id c hc)
    · exact h.seek_other hid

theorem resume_other (h : Excerpt home topic count b b') (hid : home id ≠ topic) :
    Excerpt home topic count (b.resume id).2 b' := by
  unfold Broker.resume
  split
  · exact h
  · rename_i c hc
    split
    · dsimp only
      split
      · exact (h.setConsumer_other hid (by exact h.homes id c hc)).leave_other hid
      · exact h.leave_other hid
    · split
      · exact (h.note_silent rfl).seek_other hid
      · exact h

theorem ask_other (h : Excerpt home topic count b b') (hid : home id ≠ topic) (cancelled : Bool) :
    Excerpt home topic count (b.ask id cancelled) b' := by
  unfold Broker.ask
  split
  · exact h
  · rename_i c hc
    exact (h.setConsumer_other hid (by exact h.homes id c hc)).enqueue_other hid

theorem runNext_other (h : Excerpt home topic count b b') (hid : home id ≠ topic) :
    Excerpt home topic count (b.runNext id) b' := by
  rcases b.runNext_cases id with he | ⟨b₁, hb₁, he⟩
  · rwa [he]
  · have hran : Excerpt home topic count b₁ b' := by
      rcases hb₁ with rfl | rfl
      · exact h.begin_other hid
      · exact h.resume_other hid
    rcases he with he | ⟨a, he⟩
    · rwa [he]
    · rw [he]
      exact hran.note_other fun o ho => by cases ho; exact hid

theorem cancel_other (h : Excerpt home topic count b b') (hid : home id ≠ topic) :
    Excerpt home topic count (b.cancel id) b' := by
  unfold Broker.cancel
  split
  · exact h
  · rename_i c hc
    have hset := h.setConsumer_other (c := { c with cancelled := true }) hid (h.homes id c hc)
    dsimp only
    split
    · exact hset.enqueue_other hid
    · exact hset

theorem abandon_other (h : Excerpt home topic count b b') (hid : home id ≠ topic) :
    Excerpt home topic count (b.abandon id) b' := by
  unfold Broker.abandon
  split
  · exact h
  · rename_i c hc
    have hleft := h.unready_other hid
    have hhome := h.homes id c hc
    dsimp only
    cases c.wait with
    | idle => exact hleft
    | asked => exact hleft.setConsumer_other hid (by exact hhome)
    | parked => exact hleft.leave_other hid
    | woken => exact (hleft.setConsumer_other hid (by exact hhome)).leave_other hid

theorem settle_other (h : Excerpt home topic count b b') (hid : home id ≠ topic) (v : Verdict) :
    Excerpt home topic count (b.settle id v).2 b' := by
  cases hc : b.consumer? id with
  | none => simpa only [Broker.settle, hc] using h
  | some c =>
    cases hh : c.holding with
    | false => rwa [settle_idle hc hh]
    | true =>
      have hhome := h.homes id c hc
      have hne : c.topic ≠ topic := hhome.trans_ne hid
      rw [settle_holding hc hh]
      have hcall := h.call_other v.call c.topic (fun s => (v.apply c.topic s).map ((), ·))
        fun _ s hs => by
          have ha : v.apply c.topic b.store = .ok s := by
            cases ha : v.apply c.topic b.store <;> simp_all [Except.map]
          exact h.store.sound.beside_apply hne ha
      generalize b.call v.call c.topic _ = r at hcall ⊢
      obtain ⟨a, b₁⟩ := r
      cases a with
      | error e => exact hcall
      | ok _ =>
        have hset := hcall.setConsumer_other (c := { c with holding := false }) hid hhome
        exact (hset.note_silent (by cases v <;> rfl)).notify_other hne v.reason

theorem forget_other (h : Excerpt home topic count b b') (hid : home id ≠ topic)
    (hne : other ≠ topic) : Excerpt home topic count (b.forget id other) b' :=
  { h.note_silent (n := .deregistered id other) rfl with
    consumers := fun who hwho => by
      have hwhone : who ≠ id := fun he => hid (he ▸ hwho)
      rw [h.consumers who hwho, consumer?_forget_eq, if_neg hwhone]
    roster := by rw [roster?_forget, if_neg hne.symm, h.roster]
    homes := h.homes_forget id other
    members := h.members_forget id other }

theorem release_other (h : Excerpt home topic count b b') (hid : home id ≠ topic) :
    Excerpt home topic count (b.release id) b' := by
  cases hc : b.consumer? id with
  | none => simpa only [Broker.release, hc] using h
  | some c =>
    have hne : c.topic ≠ topic := (h.homes id c hc).trans_ne hid
    cases hh : c.holding with
    | false =>
      rw [release_idle hc hh]
      exact h.forget_other hid hne
    | true =>
      rw [release_holding hc hh]
      have hsettle := h.settle_other hid .nack
      generalize b.settle id .nack = r at hsettle ⊢
      obtain ⟨a, b₁⟩ := r
      cases a with
      | error e => exact (hsettle.note_silent rfl).forget_other hid hne
      | ok _ => exact (hsettle.note_silent rfl).forget_other hid hne

theorem publish_other (h : Excerpt home topic count b b') (hne : other ≠ topic) (payload : Bytes) :
    Excerpt home topic count (b.publish other payload).2 b' := by
  unfold Broker.publish
  have hcall := h.call_other .insert other (fun s => (s.insert other payload b.clock).map ((), ·))
    fun _ s hs => by
      have hi : b.store.insert other payload b.clock = .ok s := by
        cases hi : b.store.insert other payload b.clock <;> simp_all [Except.map]
      exact h.store.sound.beside_insert hne hi
  generalize b.call .insert other _ = r at hcall ⊢
  obtain ⟨a, b₁⟩ := r
  cases a with
  | error e => exact hcall
  | ok _ => exact (hcall.note_silent rfl).notify_other hne .publish

theorem subscribe_other (h : Excerpt home topic count b b') (hhome : home count = other)
    (hne : other ≠ topic) : Excerpt home topic (count + 1) (b.subscribe other).2 b' :=
  { h.note_silent (n := .registered count other) rfl with
    consumers := fun who hwho => by
      have hwhone : who ≠ b.nextId := by
        rintro rfl
        rw [h.nextId, hhome] at hwho
        exact hne hwho
      rw [h.consumers who hwho, consumer?_subscribe, if_neg hwhone]
    roster := by rw [h.roster, roster?_subscribe, if_neg hne.symm]
    outputs := (h.note_silent (n := .registered b.nextId other) rfl).outputs
    nextId := congrArg (· + 1) h.nextId
    nextId' := h.nextId'.trans (rank_succ_other (hhome.trans_ne hne)).symm
    homes := h.homes_subscribe hhome
    members := h.members_subscribe hhome }

end Broker.Excerpt

end TopicQueue

import Mathlib.Data.List.Find
import Mathlib.Data.Nat.Count
import TopicQueue.Proofs.LoneConsumer
import TopicQueue.Scene.Report

namespace TopicQueue

namespace Store

/-- A topic has the same entries in both stores, if under other keys, and the same claim. -/
structure Excerpt (topic : String) (s s' : Store) : Prop where
  sound : s.Sound
  sound' : s'.Sound
  closed : s'.closed = s.closed
  values : (s'.tree topic).map (·.2) = (s.tree topic).map (·.2)
  claimed : (s'.claim? topic).isSome = (s.claim? topic).isSome

/-- Calls of both stores with the same answer. -/
inductive Matched (topic : String) {α : Type} :
    Except StoreError (α × Store) → Except StoreError (α × Store) → Prop where
  | failed (e : StoreError) : Matched topic (.error e) (.error e)
  | done (a : α) {s s' : Store} (h : Excerpt topic s s') : Matched topic (.ok (a, s)) (.ok (a, s'))

variable {topic : String} {s s' : Store}

theorem Excerpt.insert (h : Excerpt topic s s') (payload : Bytes) (now : Int) :
    Matched topic ((s.insert topic payload now).map ((), ·))
      ((s'.insert topic payload now).map ((), ·)) := by
  unfold Store.insert
  by_cases ho : s.closed = true
  · rw [if_pos ho, if_pos (h.closed.trans ho)]
    exact .failed _
  · rw [if_neg ho, if_neg (h.closed ▸ ho)]
    refine .done () ⟨h.sound.append .., h.sound'.append .., h.closed, ?_, h.claimed⟩
    rw [h.sound.append_tree, h.sound'.append_tree, if_pos rfl, if_pos rfl]
    simp [h.values]

/-- Both have a claim on the first entry, or neither has one. -/
theorem Excerpt.claims (h : Excerpt topic s s') :
    (s.claim? topic = none ∧ s'.claim? topic = none) ∨
    ∃ key key' value value' rest rest', s.claim? topic = some key ∧ s'.claim? topic = some key' ∧
      s.tree topic = (key, value) :: rest ∧ s'.tree topic = (key', value') :: rest' ∧
      rest'.map (·.2) = rest.map (·.2) := by
  have hclaimed := h.claimed
  cases hc : s.claim? topic with
  | none => exact .inl ⟨rfl, by simpa [hc] using hclaimed⟩
  | some key =>
    obtain ⟨key', hc'⟩ := Option.isSome_iff_exists.mp (hclaimed.trans (by simp [hc]))
    obtain ⟨value, rest, ht⟩ := h.sound.claimed_first topic key hc
    obtain ⟨value', rest', ht'⟩ := h.sound'.claimed_first topic key' hc'
    have hvalues := h.values
    rw [ht, ht', List.map_cons, List.map_cons] at hvalues
    exact .inr ⟨key, key', value, value', rest, rest', rfl, hc', ht, ht', (List.cons.inj hvalues).2⟩

theorem Excerpt.fetchNext (h : Excerpt topic s s') :
    Matched topic (s.fetchNext topic) (s'.fetchNext topic) := by
  unfold Store.fetchNext
  by_cases ho : s.closed = true
  · rw [if_pos ho, if_pos (h.closed.trans ho)]
    exact .failed _
  · rw [if_neg ho, if_neg (h.closed ▸ ho)]
    rcases h.claims with ⟨hc, hc'⟩ | ⟨key, key', _, _, _, _, hc, hc', -⟩
    · rw [hc, hc']
      have hvalues := h.values
      cases ht : s.tree topic with
      | nil =>
        rw [ht, List.map_nil, List.map_eq_nil_iff] at hvalues
        rw [hvalues]
        exact .done none h
      | cons e rest =>
        rw [ht, List.map_cons, List.map_eq_cons_iff] at hvalues
        obtain ⟨⟨key', value⟩, rest', ht', hvalue, -⟩ := hvalues
        obtain ⟨key, _⟩ := e
        obtain rfl := hvalue
        rw [ht']
        dsimp only [Tree.first?, List.head?_cons]
        cases StoredEntry.decode value with
        | error flaw => exact .failed _
        | ok entry =>
          have hfirst : (s.tree topic).first? = some (key, value) := by rw [ht]; rfl
          have hfirst' : (s'.tree topic).first? = some (key', value) := by rw [ht']; rfl
          refine .done _ ⟨h.sound.claim hfirst, h.sound'.claim hfirst', h.closed, h.values, ?_⟩
          simp [claim?]
    · rw [hc, hc']
      exact .done none h

theorem Excerpt.commit (h : Excerpt topic s s') :
    Matched topic ((s.commit topic).map ((), ·)) ((s'.commit topic).map ((), ·)) := by
  unfold Store.commit
  by_cases ho : s.closed = true
  · rw [if_pos ho, if_pos (h.closed.trans ho)]
    exact .failed _
  · rw [if_neg ho, if_neg (h.closed ▸ ho)]
    rcases h.claims with ⟨hc, hc'⟩ | ⟨key, key', _, _, rest, rest', hc, hc', ht, ht', hrest⟩
    · rw [hc, hc']
      exact .failed _
    · rw [hc, hc']
      refine .done () ⟨h.sound.dropClaimed ht, h.sound'.dropClaimed ht', h.closed, ?_, ?_⟩
      · have htree := h.sound.dropClaimed_tree ht topic
        have htree' := h.sound'.dropClaimed_tree ht' topic
        rw [if_pos rfl] at htree htree'
        exact (congrArg _ htree').trans (hrest.trans (congrArg _ htree).symm)
      · simp [claim?]

theorem Excerpt.requeue (h : Excerpt topic s s') :
    Matched topic ((s.requeue topic).map ((), ·)) ((s'.requeue topic).map ((), ·)) := by
  unfold Store.requeue
  by_cases ho : s.closed = true
  · rw [if_pos ho, if_pos (h.closed.trans ho)]
    exact .failed _
  · rw [if_neg ho, if_neg (h.closed ▸ ho)]
    rcases h.claims with ⟨hc, hc'⟩ | ⟨key, key', _, _, _, _, hc, hc', -⟩
    · rw [hc, hc']
      exact .failed _
    · rw [hc, hc']
      refine .done () ⟨h.sound.release topic, h.sound'.release topic, h.closed, h.values, ?_⟩
      simp [claim?]

theorem Excerpt.apply (h : Excerpt topic s s') (v : Verdict) :
    Matched topic ((v.apply topic s).map ((), ·)) ((v.apply topic s').map ((), ·)) := by
  cases v with
  | ack => exact h.commit
  | nack => exact h.requeue

theorem Excerpt.close (h : Excerpt topic s s') : Excerpt topic s.close s'.close :=
  ⟨⟨h.sound.ascending, h.sound.below, h.sound.claimed_first⟩,
    ⟨h.sound'.ascending, h.sound'.below, h.sound'.claimed_first⟩, rfl, h.values, h.claimed⟩

end Store

/-- Everybody under another number. -/
def Roster.renumber (f : ConsumerId → ConsumerId) (r : Roster ConsumerId) : Roster ConsumerId :=
  { r with members := r.members.map f }

/-- The number of a consumer among those of its topic, where each has registered for its `home`. -/
def rank (home : ConsumerId → String) (topic : String) (id : ConsumerId) : ConsumerId :=
  Nat.count (home · = topic) id

variable {home : ConsumerId → String} {topic other : String} {id who : ConsumerId} {count : Nat}

theorem rank_inj (hid : home id = topic) (hwho : home who = topic) :
    rank home topic id = rank home topic who ↔ id = who :=
  ⟨fun h => Nat.count_injective (p := (home · = topic)) hid hwho h, fun h => h ▸ rfl⟩

theorem rank_succ_self (h : home count = topic) :
    rank home topic (count + 1) = rank home topic count + 1 := by
  simp [rank, Nat.count_succ, h]

theorem rank_succ_other (h : home count ≠ topic) :
    rank home topic (count + 1) = rank home topic count := by
  simp [rank, Nat.count_succ, h]

namespace Broker

/-- What consumers and sessions have been given, the latest first. -/
def outputs (b : Broker) : List (ConsumerId × Output) := b.journal.filterMap (·.note.output?)

/-- The second broker has of one topic what the first has, with the consumers under their numbers
in that topic. No fault is armed, and the first has registered so many consumers, each for its
`home`. -/
structure Excerpt (home : ConsumerId → String) (topic : String) (count : Nat) (b b' : Broker) :
    Prop where
  store : Store.Excerpt topic b.store b'.store
  unarmed : b.faults.Unarmed
  unarmed' : b'.faults.Unarmed
  clock : b'.clock = b.clock
  consumers : ∀ id, home id = topic → b'.consumer? (rank home topic id) = b.consumer? id
  roster : b'.roster? topic = (b.roster? topic).map (·.renumber (rank home topic))
  /-- The tasks of the topic are to run in the same order, whatever runs between them. -/
  ready : b'.ready = (b.ready.filter (home · = topic)).map (rank home topic)
  outputs : b'.outputs =
    (b.outputs.filter (home ·.1 = topic)).map fun o => (rank home topic o.1, o.2)
  nextId : b.nextId = count
  nextId' : b'.nextId = rank home topic count
  /-- Nobody is in a topic but its own, and so nobody else can wake or settle anything in it. -/
  homes : ∀ id c, b.consumer? id = some c → c.topic = home id
  members : ∀ t r, b.roster? t = some r → ∀ id ∈ r.members, home id = t

/-- Calls of both brokers with the same answer. -/
inductive Matched (home : ConsumerId → String) (topic : String) (count : Nat) {α : Type} :
    α × Broker → α × Broker → Prop where
  | mk (a : α) {b b' : Broker} (h : Excerpt home topic count b b') :
      Matched home topic count (a, b) (a, b')

theorem Matched.cases {α : Type} {r r' : α × Broker} (h : Matched home topic count r r') :
    ∃ a b b', r = (a, b) ∧ r' = (a, b') ∧ Excerpt home topic count b b' := by
  obtain ⟨a, h⟩ := h
  exact ⟨a, _, _, rfl, rfl, h⟩

namespace Excerpt

variable {b b' : Broker} {c : Consumer} {n m : Note}

-- What the calls below are made of.

theorem note (h : Excerpt home topic count b b') (hn : n.output? = none) (hm : m.output? = none) :
    Excerpt home topic count (b.note n) (b'.note m) :=
  { h with outputs := by simpa [Broker.outputs, Broker.note, hn, hm] using h.outputs }

theorem note_output (h : Excerpt home topic count b b') (hid : home id = topic) {o : Output}
    (hn : n.output? = some (id, o)) (hm : m.output? = some (rank home topic id, o)) :
    Excerpt home topic count (b.note n) (b'.note m) :=
  { h with outputs := by simpa [Broker.outputs, Broker.note, hn, hm, hid] using h.outputs }

theorem setConsumer (h : Excerpt home topic count b b') (hid : home id = topic)
    (hc : c.topic = topic) :
    Excerpt home topic count (b.setConsumer id c) (b'.setConsumer (rank home topic id) c) :=
  { h with
    consumers := fun who hwho => by
      simp only [consumer?_setConsumer, rank_inj hwho hid, h.consumers who hwho]
    homes := fun who d hd => by
      rw [consumer?_setConsumer] at hd
      split at hd
      · cases hd
        rename_i hwho
        rw [hc, hwho, hid]
      · exact h.homes who d hd }

theorem mem_ready (h : Excerpt home topic count b b') (hid : home id = topic) :
    rank home topic id ∈ b'.ready ↔ id ∈ b.ready := by
  rw [h.ready, List.mem_map]
  constructor
  · rintro ⟨who, hwho, he⟩
    obtain ⟨hmem, hhome⟩ := List.mem_filter.mp hwho
    rwa [← (rank_inj (by simpa using hhome) hid).mp he]
  · exact fun hmem => ⟨id, List.mem_filter.mpr ⟨hmem, by simpa using hid⟩, rfl⟩

theorem enqueue (h : Excerpt home topic count b b') (hid : home id = topic) :
    Excerpt home topic count (b.enqueue id) (b'.enqueue (rank home topic id)) := by
  unfold Broker.enqueue
  simp only [h.mem_ready hid]
  split
  · exact h
  · exact { h with ready := by simp [h.ready, List.filter_append, hid] }

theorem unready (h : Excerpt home topic count b b') (hid : home id = topic) :
    Excerpt home topic count { b with ready := b.ready.filter (· != id) }
      { b' with ready := b'.ready.filter (· != rank home topic id) } :=
  { h with
    ready := by
      dsimp only
      rw [h.ready, List.filter_map, List.filter_filter, List.filter_filter]
      refine congrArg _ (List.filter_congr fun who _ => ?_)
      by_cases hwho : home who = topic
      · simp [hwho, bne, beq_eq_decide, rank_inj hwho hid]
      · simp [hwho] }

theorem call (h : Excerpt home topic count b b') (k : StoreCall) (t : String) {α : Type}
    (act : Store → Except StoreError (α × Store))
    (hact : Store.Matched topic (act b.store) (act b'.store)) :
    Matched home topic count (b.call k t act) (b'.call k t act) := by
  rw [call_unarmed h.unarmed, call_unarmed h.unarmed']
  generalize act b.store = r at hact
  generalize act b'.store = r' at hact
  cases hact with
  | failed e => exact .mk _ (h.note rfl rfl)
  | done a hs => exact .mk _ (note { h with store := hs } rfl rfl)

-- What the calls of the topic are.

theorem wake (h : Excerpt home topic count b b') (hid : home id = topic) :
    Excerpt home topic count (b.wake id) (b'.wake (rank home topic id)) := by
  unfold Broker.wake
  rw [h.consumers id hid]
  split
  · exact h
  · rename_i c hc
    have htopic := (h.homes id c hc).trans hid
    split
    · exact (h.setConsumer hid (by exact htopic)).enqueue hid
    · exact h.setConsumer hid (by exact htopic)

/-- Whoever waits first waits first. -/
theorem firstWaiting (h : Excerpt home topic count b b') {r : Roster ConsumerId}
    (hr : b.roster? topic = some r) :
    (r.renumber (rank home topic)).firstWaiting? b'.isWaiting =
      (r.firstWaiting? b.isWaiting).map (rank home topic) := by
  have hwaits : ∀ id ∈ r.members, (b'.isWaiting ∘ rank home topic) id = b.isWaiting id := by
    intro id hid
    simp only [Function.comp_apply, isWaiting, h.consumers id (h.members topic r hr id hid)]
  simp only [Roster.firstWaiting?, Roster.renumber, List.find?_map, List.find?_congr hwaits]

theorem notify (h : Excerpt home topic count b b') (reason : WakeReason) :
    Excerpt home topic count (b.notify topic reason) (b'.notify topic reason) := by
  unfold Broker.notify
  rw [h.roster]
  cases hr : b.roster? topic with
  | none => exact h.note rfl rfl
  | some r =>
    rw [Option.map_some]
    dsimp only
    rw [h.firstWaiting hr]
    cases hf : r.firstWaiting? b.isWaiting with
    | none => exact h.note rfl rfl
    | some id =>
      have hid := h.members topic r hr id (List.mem_of_find?_eq_some hf)
      exact (h.wake hid).note rfl rfl

theorem leave (h : Excerpt home topic count b b') (hid : home id = topic) :
    Excerpt home topic count (b.leave id) (b'.leave (rank home topic id)) := by
  unfold Broker.leave
  rw [h.consumers id hid]
  split
  · exact h
  · rename_i c hc
    have htopic := (h.homes id c hc).trans hid
    have hset := h.setConsumer (c := { c with waiting := false, wait := .idle }) hid htopic
    dsimp only
    split
    · exact hset
    · subst htopic
      exact hset.notify .handoff

theorem look (h : Excerpt home topic count b b') (hid : home id = topic) (hc : c.topic = topic) :
    Matched home topic count (b.look id c) (b'.look (rank home topic id) c) := by
  cases hcancel : c.cancelled with
  | true =>
    rw [look_cancelled b hcancel, look_cancelled b' hcancel]
    exact .mk _ (h.setConsumer hid hc)
  | false =>
    rw [look_uncancelled b id hcancel, look_uncancelled b' _ hcancel, hc]
    have hset := h.setConsumer (c := c.alert) hid hc
    obtain ⟨a, b₁, b₁', he, he', h⟩ :=
      (hset.call .fetchNext topic (·.fetchNext topic) hset.store.fetchNext).cases
    rw [he, he']
    rcases a with e | - | payload
    · exact .mk _ (h.leave hid)
    · exact .mk _ h
    · have hheld := h.setConsumer (c := { c.alert with holding := true }) hid hc
      exact .mk _ ((hheld.note rfl rfl).leave hid)

theorem park (h : Excerpt home topic count b b') (hid : home id = topic) :
    Excerpt home topic count (b.park id) (b'.park (rank home topic id)) := by
  unfold Broker.park
  rw [h.consumers id hid]
  split
  · exact h
  · rename_i c hc
    exact h.setConsumer hid ((h.homes id c hc).trans hid)

theorem seek (h : Excerpt home topic count b b') (hid : home id = topic) :
    Matched home topic count (b.seek id) (b'.seek (rank home topic id)) := by
  unfold Broker.seek
  rw [h.consumers id hid]
  split
  · exact .mk _ h
  · rename_i c hc
    have htopic := (h.homes id c hc).trans hid
    obtain ⟨a, b₁, b₁', he, he', h⟩ := (h.look hid htopic).cases
    rw [he, he']
    cases a with
    | some result => exact .mk _ h
    | none =>
      dsimp only
      split
      · have hnoted := h.note (n := .woken id c.topic) rfl
          (m := .woken (rank home topic id) c.topic) rfl
        obtain ⟨a, b₂, b₂', he, he', h⟩ := (hnoted.look hid htopic).cases
        rw [he, he']
        cases a with
        | some result => exact .mk _ h
        | none => exact .mk _ (h.park hid)
      · exact .mk _ (h.park hid)

theorem begin (h : Excerpt home topic count b b') (hid : home id = topic) :
    Matched home topic count (b.begin id) (b'.begin (rank home topic id)) := by
  unfold Broker.begin
  rw [h.consumers id hid]
  split
  · exact .mk _ h
  · rename_i c hc
    split
    · exact .mk _ (h.setConsumer hid ((h.homes id c hc).trans hid))
    · exact h.seek hid

theorem resume (h : Excerpt home topic count b b') (hid : home id = topic) :
    Matched home topic count (b.resume id) (b'.resume (rank home topic id)) := by
  unfold Broker.resume
  rw [h.consumers id hid]
  split
  · exact .mk _ h
  · rename_i c hc
    have htopic := (h.homes id c hc).trans hid
    split
    · dsimp only
      split
      · exact .mk _ ((h.setConsumer hid (by exact htopic)).leave hid)
      · exact .mk _ (h.leave hid)
    · split
      · exact (h.note rfl rfl).seek hid
      · exact .mk _ h

theorem ask (h : Excerpt home topic count b b') (hid : home id = topic) (cancelled : Bool) :
    Excerpt home topic count (b.ask id cancelled) (b'.ask (rank home topic id) cancelled) := by
  unfold Broker.ask
  rw [h.consumers id hid]
  split
  · exact h
  · rename_i c hc
    exact (h.setConsumer hid (by exact (h.homes id c hc).trans hid)).enqueue hid

theorem runNext (h : Excerpt home topic count b b') (hid : home id = topic) :
    Excerpt home topic count (b.runNext id) (b'.runNext (rank home topic id)) := by
  unfold Broker.runNext
  rw [h.consumers id hid]
  split
  · exact h
  · rename_i c hc
    have hbegin := h.begin hid
    have hresume := h.resume hid
    -- what the call answers is all that is left to look at
    generalize b.begin id = r, b'.begin (rank home topic id) = r' at hbegin ⊢
    generalize b.resume id = q, b'.resume (rank home topic id) = q' at hresume ⊢
    obtain ⟨a, hbegin⟩ := hbegin
    obtain ⟨e, hresume⟩ := hresume
    cases c.wait with
    | idle => exact h
    | asked =>
      cases a with
      | none => exact hbegin
      | some result => exact hbegin.note_output hid rfl rfl
    | parked | woken =>
      cases e with
      | none => exact hresume
      | some result => exact hresume.note_output hid rfl rfl

theorem cancel (h : Excerpt home topic count b b') (hid : home id = topic) :
    Excerpt home topic count (b.cancel id) (b'.cancel (rank home topic id)) := by
  unfold Broker.cancel
  rw [h.consumers id hid]
  split
  · exact h
  · rename_i c hc
    have hset := h.setConsumer (c := { c with cancelled := true }) hid ((h.homes id c hc).trans hid)
    dsimp only
    split
    · exact hset.enqueue hid
    · exact hset

theorem abandon (h : Excerpt home topic count b b') (hid : home id = topic) :
    Excerpt home topic count (b.abandon id) (b'.abandon (rank home topic id)) := by
  unfold Broker.abandon
  rw [h.consumers id hid]
  split
  · exact h
  · rename_i c hc
    have hleft := h.unready hid
    have htopic := (h.homes id c hc).trans hid
    dsimp only
    cases c.wait with
    | idle => exact hleft
    | asked => exact hleft.setConsumer hid (by exact htopic)
    | parked => exact hleft.leave hid
    | woken => exact (hleft.setConsumer hid (by exact htopic)).leave hid

theorem settle (h : Excerpt home topic count b b') (hid : home id = topic) (v : Verdict) :
    Matched home topic count (b.settle id v) (b'.settle (rank home topic id) v) := by
  have hlook := h.consumers id hid
  cases hc : b.consumer? id with
  | none =>
    simp only [Broker.settle, hlook, hc]
    exact .mk _ h
  | some c =>
    have htopic := (h.homes id c hc).trans hid
    rw [hc] at hlook
    cases hh : c.holding with
    | false =>
      rw [settle_idle hc hh, settle_idle hlook hh]
      exact .mk _ h
    | true =>
      subst htopic
      rw [settle_holding hc hh, settle_holding hlook hh]
      obtain ⟨a, b₁, b₁', he, he', h⟩ :=
        (h.call v.call c.topic (fun s => (v.apply c.topic s).map ((), ·)) (h.store.apply v)).cases
      rw [he, he']
      cases a with
      | error e => exact .mk _ h
      | ok _ =>
        have hset := h.setConsumer (c := { c with holding := false }) hid rfl
        have hn : ∀ id, (v.record id c.topic).output? = none := by
          intro id
          cases v <;> rfl
        exact .mk _ ((hset.note (hn id) (hn _)).notify v.reason)

/-- Who is struck off is struck off under the other number. -/
theorem renumber_strike (hid : home id = topic) {r : Roster ConsumerId}
    (hr : ∀ who ∈ r.members, home who = topic) :
    (r.renumber (rank home topic)).strike (rank home topic id) =
      (r.strike id).renumber (rank home topic) := by
  simp only [Roster.strike, Roster.renumber, List.filter_map]
  congr 2
  refine List.filter_congr fun who hwho => ?_
  simp [bne, beq_eq_decide, rank_inj (hr who hwho) hid]

theorem members_forget (h : Excerpt home topic count b b') (id : ConsumerId) (u : String) :
    ∀ t r, (b.forget id u).roster? t = some r → ∀ who ∈ r.members, home who = t := by
  intro t r hr who hwho
  rw [roster?_forget] at hr
  split at hr
  · rename_i ht
    obtain ⟨r₀, hr₀, rfl⟩ := Option.map_eq_some_iff.mp (Option.eq_some_of_filter_eq_some hr)
    rw [ht]
    exact h.members u r₀ hr₀ who (List.mem_of_mem_filter hwho)
  · exact h.members t r hr who hwho

theorem homes_forget (h : Excerpt home topic count b b') (id : ConsumerId) (u : String) :
    ∀ who c, (b.forget id u).consumer? who = some c → c.topic = home who := by
  intro who c hc
  rw [consumer?_forget_eq] at hc
  split at hc
  · cases hc
  · exact h.homes who c hc

theorem forget (h : Excerpt home topic count b b') (hid : home id = topic) :
    Excerpt home topic count (b.forget id topic) (b'.forget (rank home topic id) topic) :=
  { h.note (n := .deregistered id topic) rfl (m := .deregistered (rank home topic id) topic) rfl
      with
    consumers := fun who hwho => by
      simp only [consumer?_forget_eq, rank_inj hwho hid, h.consumers who hwho]
    roster := by
      rw [roster?_forget, roster?_forget, if_pos rfl, if_pos rfl, h.roster]
      cases hr : b.roster? topic with
      | none => rfl
      | some r =>
        simp only [Option.map_some, renumber_strike hid (h.members topic r hr)]
        simp [Option.filter, Roster.renumber, Roster.isEmpty, apply_ite]
    homes := h.homes_forget id topic
    members := h.members_forget id topic }

theorem release (h : Excerpt home topic count b b') (hid : home id = topic) :
    Excerpt home topic count (b.release id) (b'.release (rank home topic id)) := by
  have hlook := h.consumers id hid
  cases hc : b.consumer? id with
  | none =>
    rw [hc] at hlook
    simpa only [Broker.release, hc, hlook] using h
  | some c =>
    have htopic := (h.homes id c hc).trans hid
    rw [hc] at hlook
    subst htopic
    cases hh : c.holding with
    | false =>
      rw [release_idle hc hh, release_idle hlook hh]
      exact h.forget hid
    | true =>
      rw [release_holding hc hh, release_holding hlook hh]
      obtain ⟨a, b₁, b₁', he, he', h⟩ := (h.settle hid .nack).cases
      rw [he, he']
      cases a with
      | error e => exact (h.note rfl rfl).forget hid
      | ok _ => exact (h.note rfl rfl).forget hid

theorem publish (h : Excerpt home topic count b b') (payload : Bytes) :
    Matched home topic count (b.publish topic payload) (b'.publish topic payload) := by
  unfold Broker.publish
  rw [h.clock]
  have hcall := h.call .insert topic (fun s => (s.insert topic payload b.clock).map ((), ·))
    (h.store.insert payload b.clock)
  obtain ⟨a, b₁, b₁', he, he', h⟩ := hcall.cases
  rw [he, he']
  cases a with
  | error e => exact .mk _ h
  | ok _ => exact .mk _ ((h.note rfl rfl).notify .publish)

theorem shutdown (h : Excerpt home topic count b b') :
    Matched home topic count b.shutdown b'.shutdown := by
  unfold Broker.shutdown
  obtain ⟨a, b₁, b₁', he, he', h⟩ :=
    (h.call .close "" (fun s => .ok ((), s.close)) (.done () h.store.close)).cases
  rw [he, he']
  cases a with
  | error e => exact .mk _ h
  | ok _ => exact .mk _ h

theorem members_subscribe (h : Excerpt home topic count b b') (hhome : home count = other) :
    ∀ t r, (b.subscribe other).2.roster? t = some r → ∀ who ∈ r.members, home who = t := by
  intro t r hr who hwho
  rw [roster?_subscribe] at hr
  split at hr
  · rename_i ht
    cases hr
    rw [ht]
    rcases List.mem_append.mp hwho with hold | hnew
    · cases hr₀ : b.roster? other with
      | none => simp [hr₀] at hold
      | some r₀ =>
        rw [hr₀] at hold
        exact h.members other r₀ hr₀ who hold
    · rw [List.mem_singleton.mp hnew, h.nextId, hhome]
  · exact h.members t r hr who hwho

theorem homes_subscribe (h : Excerpt home topic count b b') (hhome : home count = other) :
    ∀ who c, (b.subscribe other).2.consumer? who = some c → c.topic = home who := by
  intro who c hc
  rw [consumer?_subscribe] at hc
  split at hc
  · rename_i hwho
    cases hc
    rw [hwho, h.nextId, hhome]
  · exact h.homes who c hc

theorem subscribe (h : Excerpt home topic count b b') (hhome : home count = topic) :
    Excerpt home topic (count + 1) (b.subscribe topic).2 (b'.subscribe topic).2 :=
  { h.note (n := .registered count topic) rfl (m := .registered (rank home topic count) topic) rfl
      with
    consumers := fun who hwho => by
      simp only [consumer?_subscribe, h.nextId, h.nextId', rank_inj hwho hhome, h.consumers who hwho]
    roster := by
      rw [roster?_subscribe, roster?_subscribe, if_pos rfl, if_pos rfl, h.nextId, h.nextId', h.roster]
      cases b.roster? topic <;> simp [Roster.renumber, Roster.enrol]
    nextId := congrArg (· + 1) h.nextId
    nextId' := (congrArg (· + 1) h.nextId').trans (rank_succ_self hhome).symm
    homes := h.homes_subscribe hhome
    members := h.members_subscribe hhome }

end Excerpt

end Broker

end TopicQueue

import TopicQueue.Proofs.Congruences
import TopicQueue.Proofs.Excerpts

namespace TopicQueue

namespace Faults

/-- The fault of a call, unless it is used up. -/
def live (f : Faults) (call : StoreCall) : Option Fault :=
  (f.look call).filter fun fault => decide (0 < fault.skip ∨ 0 < fault.times)

variable {f f' : Faults} {call : StoreCall}

theorem live_cases (f : Faults) (call : StoreCall) :
    f.live call = none ∧ f.trip call = (none, f) ∨
    ∃ fault, f.live call = some fault ∧ f.look call = some fault ∧
      (0 < fault.skip ∨ 0 < fault.times) := by
  unfold live
  cases hf : f.look call with
  | none => exact .inl ⟨rfl, by simp [trip, hf]⟩
  | some fault =>
    by_cases hlive : 0 < fault.skip ∨ 0 < fault.times
    · exact .inr ⟨fault, by simp [Option.filter, hlive], rfl, hlive⟩
    · obtain ⟨hskip, htimes⟩ := not_or.mp hlive
      exact .inl ⟨by simp [Option.filter, hlive], by simp [trip, hf, hskip, htimes]⟩

theorem live_used {kind : FaultKind} (h : f.look call = some ⟨kind, 0, 0⟩) :
    f.live call = none := by
  rw [live, h]
  rfl

theorem live_put (f : Faults) (call other : StoreCall) (fault : Fault) :
    live (f.put call fault) other = if other = call then
      (some fault).filter fun fault => decide (0 < fault.skip ∨ 0 < fault.times)
    else f.live other := by
  unfold live
  rw [Table.look_put]
  split <;> rfl

/-- Faults that are used up make no difference. -/
theorem trip_alike (h : ∀ call, f'.live call = f.live call) (call : StoreCall) :
    (f'.trip call).1 = (f.trip call).1 ∧
      ∀ other, live (f'.trip call).2 other = live (f.trip call).2 other := by
  rcases f.live_cases call with ⟨hl, ht⟩ | ⟨fault, hl, hf, hlive⟩
  · rcases f'.live_cases call with ⟨-, ht'⟩ | ⟨fault, hl', -⟩
    · rw [ht, ht']
      exact ⟨rfl, h⟩
    · rw [h call, hl] at hl'
      cases hl'
  · rcases f'.live_cases call with ⟨hl', -⟩ | ⟨fault', hl', hf', -⟩
    · rw [h call, hl] at hl'
      cases hl'
    · rw [h call, hl] at hl'
      cases hl'
      simp only [trip, hf, hf']
      have hput : ∀ fault other, live (f'.put call fault) other = live (f.put call fault) other := by
        intro fault other
        rw [live_put, live_put, h other]
      split
      · exact ⟨rfl, hput _⟩
      · split
        · exact ⟨rfl, hput _⟩
        · exact ⟨rfl, h⟩

/-- A call uses up no fault but its own. -/
theorem live_trip_of_ne {other : StoreCall} (h : call ≠ other) :
    live (f.trip other).2 call = f.live call := by
  unfold trip
  split
  · rfl
  · split
    · rw [live_put, if_neg h]
    · split
      · rw [live_put, if_neg h]
      · rfl

/-- No call arms a fault. -/
theorem live_trip (h : f.live call = none) (other : StoreCall) :
    live (f.trip other).2 call = none := by
  by_cases hne : call = other
  · subst hne
    rcases f.live_cases call with ⟨-, ht⟩ | ⟨fault, hl, -⟩
    · rwa [ht]
    · rw [h] at hl
      cases hl
  · rwa [live_trip_of_ne hne]

theorem live_remove (f : Faults) (call other : StoreCall) :
    live (f.remove call) other = if other = call then none else f.live other := by
  unfold live
  rw [Table.look_remove]
  split <;> rfl

end Faults

namespace Broker

/-- The two brokers are the same to all who use them. In a lax comparison consumers may differ in the
wakes that they have kept. -/
structure Twin (lax : Bool) (b b' : Broker) : Prop where
  store : b'.store = b.store
  topics : b'.topics = b.topics
  nextId : b'.nextId = b.nextId
  ready : b'.ready = b.ready
  span : b'.span = b.span
  clock : b'.clock = b.clock
  outputs : b'.outputs = b.outputs
  faults : ∀ call, b'.faults.live call = b.faults.live call
  unarmed : lax = true → b.faults.live .fetchNext = none
  consumers : ∀ id, b.consumer? id = none ∧ b'.consumer? id = none ∨
    ∃ c permit, b.consumer? id = some c ∧ b'.consumer? id = some { c with permit } ∧
      (lax = false → permit = c.permit)

variable {lax : Bool} {b b' b'' : Broker} {id : ConsumerId} {c : Consumer} {permit : Bool}

namespace Twin

-- What the calls below are made of.

theorem refl (b : Broker) (h : lax = true → b.faults.live .fetchNext = none) : Twin lax b b := by
  refine ⟨rfl, rfl, rfl, rfl, rfl, rfl, rfl, fun _ => rfl, h, fun id => ?_⟩
  cases hc : b.consumer? id with
  | none => exact .inl ⟨rfl, rfl⟩
  | some c => exact .inr ⟨c, c.permit, rfl, rfl, fun _ => rfl⟩

theorem symm (h : Twin lax b b') : Twin lax b' b where
  store := h.store.symm
  topics := h.topics.symm
  nextId := h.nextId.symm
  ready := h.ready.symm
  span := h.span.symm
  clock := h.clock.symm
  outputs := h.outputs.symm
  faults call := (h.faults call).symm
  unarmed hl := (h.faults _).trans (h.unarmed hl)
  consumers id := by
    rcases h.consumers id with ⟨hc, hc'⟩ | ⟨c, permit, hc, hc', hp⟩
    · exact .inl ⟨hc', hc⟩
    · exact .inr ⟨_, c.permit, hc', hc, fun hl => (hp hl).symm⟩

theorem trans (h : Twin lax b b') (h' : Twin lax b' b'') : Twin lax b b'' where
  store := h'.store.trans h.store
  topics := h'.topics.trans h.topics
  nextId := h'.nextId.trans h.nextId
  ready := h'.ready.trans h.ready
  span := h'.span.trans h.span
  clock := h'.clock.trans h.clock
  outputs := h'.outputs.trans h.outputs
  faults call := (h'.faults call).trans (h.faults call)
  unarmed := h.unarmed
  consumers id := by
    rcases h.consumers id with ⟨hc, hc'⟩ | ⟨c, permit, hc, hc', hp⟩
    · rcases h'.consumers id with ⟨-, hc''⟩ | ⟨c', permit', hd, -⟩
      · exact .inl ⟨hc, hc''⟩
      · rw [hc'] at hd
        cases hd
    · rcases h'.consumers id with ⟨hd, -⟩ | ⟨c', permit', hd, hc'', hp'⟩
      · rw [hc'] at hd
        cases hd
      · rw [hc'] at hd
        cases hd
        exact .inr ⟨c, permit', hc, hc'', fun hl => (hp' hl).trans (hp hl)⟩

theorem note (h : Twin lax b b') (n : Note) : Twin lax (b.note n) (b'.note n) :=
  { h with
    outputs := by
      have hrest : b'.journal.filterMap (·.note.output?) = b.journal.filterMap (·.note.output?) :=
        h.outputs
      simp only [Broker.outputs, Broker.note, List.filterMap_cons, hrest] }

/-- Nobody can tell what is noted besides outputs. -/
theorem aside (h : Twin lax b b') {n : Note} (hn : n.output? = none) : Twin lax b (b'.note n) :=
  { h with outputs := by simpa [Broker.outputs, Broker.note, hn] using h.outputs }

theorem setConsumer (h : Twin lax b b') (id : ConsumerId) (c : Consumer)
    (hp : lax = false → permit = c.permit) :
    Twin lax (b.setConsumer id c) (b'.setConsumer id { c with permit }) :=
  { h with
    consumers := fun other => by
      rw [consumer?_setConsumer, consumer?_setConsumer]
      split
      · exact .inr ⟨c, permit, rfl, rfl, hp⟩
      · exact h.consumers other }

/-- Whatever brokers do is the same to all who use them. -/
theorem congruence (lax : Bool) : Congruence (Twin lax) where
  similar h :=
    { store := h.store
      topics := h.topics
      nextId := h.nextId
      ready := h.ready
      span := h.span
      clock := h.clock
      consumers := fun id => (h.consumers id).imp_right fun ⟨c, permit, hc, hc', _⟩ =>
        ⟨c, permit, hc, hc'⟩ }
  note h _ := h.note _
  change {b b' id c d permit} h hc hc' hd := h.setConsumer id d fun hl => by
    rcases h.consumers id with ⟨hnone, -⟩ | ⟨c₁, permit₁, hc₁, hc₁', hp⟩
    · rw [hc] at hnone
      cases hnone
    · rw [hc] at hc₁
      cases hc₁
      rw [hc'] at hc₁'
      cases hc₁'
      rw [hp hl, hd.permit]
  level {b b'} h id c := by
    have hset : Twin lax (b.setConsumer id c) (b'.setConsumer id { c with permit := c.permit }) :=
      h.setConsumer id c fun _ => rfl
    exact hset
  remove h id :=
    { h with
      consumers := fun other => by
        simp only [consumer?, Table.look_remove]
        split
        · exact .inl ⟨rfl, rfl⟩
        · exact h.consumers other }
  trip h call :=
    ⟨(Faults.trip_alike h.faults call).1,
      { h with
        faults := (Faults.trip_alike h.faults call).2
        unarmed := fun hl => Faults.live_trip (h.unarmed hl) call }⟩
  adjust h _ _ _ _ _ _ :=
    { h with
      store := rfl
      topics := rfl
      nextId := rfl
      ready := rfl
      span := rfl
      clock := rfl }

theorem look (h : Twin lax b b') (id : ConsumerId) (c : Consumer) :
    Alike (Twin lax) (b.look id c) (b'.look id c) :=
  (congruence lax).look h id c

theorem park (h : Twin lax b b') (id : ConsumerId) : Twin lax (b.park id) (b'.park id) := by
  unfold Broker.park
  rcases h.consumers id with ⟨hc, hc'⟩ | ⟨c, permit, hc, hc', hp⟩
  · rw [hc, hc']
    exact h
  · rw [hc, hc']
    exact h.setConsumer id { c with wait := .parked } hp

end Twin

/-- A wake that has been kept makes no difference to a look, which does away with it. -/
theorem look_permit (b : Broker) (id : ConsumerId) (c : Consumer) (permit : Bool) :
    b.look id { c with permit } = b.look id c := rfl

/-- A look where there is nothing to claim. -/
theorem look_nothing (hf : b.faults.live .fetchNext = none) (hc : c.cancelled = false)
    (hs : b.store.fetchNext c.topic = .ok (none, b.store)) (id : ConsumerId) :
    b.look id c =
      (none, (b.setConsumer id c.alert).note (.called .fetchNext c.topic none)) := by
  have ht : b.faults.trip .fetchNext = (none, b.faults) := by
    rcases b.faults.live_cases .fetchNext with ⟨-, ht⟩ | ⟨fault, hl, -⟩
    · exact ht
    · rw [hf] at hl
      cases hl
  rw [look_uncancelled b id hc, call_unfaulted (by exact congrArg Prod.fst ht)]
  have hs' : (b.setConsumer id c.alert).store.fetchNext c.topic = .ok (none, b.store) := hs
  rw [hs']
  simp [setConsumer, ht]

/-- Once there is nothing to claim, another look changes nothing; it is noted, and that is all. -/
theorem look_again (hf : b.faults.live .fetchNext = none) (hl : b.look id c = (none, b')) :
    b' = (b.setConsumer id c.alert).note (.called .fetchNext c.topic none) ∧
      (b'.note (.woken id c.topic)).look id c =
        (none, (b'.note (.woken id c.topic)).note (.called .fetchNext c.topic none)) := by
  obtain ⟨hc, hs⟩ : c.cancelled = false ∧ b.store.fetchNext c.topic = .ok (none, b.store) := by
    have hsought := look_sought b id c
    rw [hl] at hsought
    cases hsought with
    | nothing f j hc hs hj => exact ⟨hc, hs⟩
  rw [look_nothing hf hc hs] at hl
  obtain rfl := (Prod.mk.inj hl).2
  refine ⟨rfl, ?_⟩
  rw [look_nothing (b := ((b.setConsumer id c.alert).note (.called .fetchNext c.topic none)).note
    (.woken id c.topic)) hf hc hs]
  simp [setConsumer, Broker.note]

/-- With a kept wake or without one, a consumer looks once as far as anybody can tell. -/
theorem seek_once (hf : b.faults.live .fetchNext = none) (hc : b.consumer? id = some c) :
    Alike (Twin true) (match b.look id c with
      | (some result, b) => (some result, b)
      | (none, b) => (none, b.park id)) (b.seek id) := by
  unfold seek
  rw [hc]
  dsimp only
  cases hl : b.look id c with
  | mk result b₁ =>
    have hself : Twin true b₁ b₁ := by
      have hb : Twin true b b := .refl b fun _ => hf
      obtain ⟨_, _, _, he, -, hself⟩ := (hb.look id c).cases
      rw [hl] at he
      cases he
      exact .refl _ hself.unarmed
    cases result with
    | some result => exact .mk _ hself
    | none =>
      cases c.permit with
      | true =>
        have hagain := hself.aside (n := .woken id c.topic) rfl
        simp only [if_true, (look_again hf hl).2]
        exact .mk _ ((hagain.aside rfl).park id)
      | false => exact .mk _ (hself.park id)

theorem Alike.symm {α : Type} {r r' : α × Broker} (h : Alike (Twin lax) r r') :
    Alike (Twin lax) r' r := by
  obtain ⟨a, h⟩ := h
  exact .mk a h.symm

theorem Alike.trans {α : Type} {r r' r'' : α × Broker} (h : Alike (Twin lax) r r')
    (h' : Alike (Twin lax) r' r'') : Alike (Twin lax) r r'' := by
  obtain ⟨a, h⟩ := h
  cases h' with
  | mk _ h' => exact .mk a (h.trans h')

namespace Twin

/-- Whatever wakes have been kept, it finds the same. -/
theorem looks (lax : Bool) (id : ConsumerId) : LooksAlike (Twin lax) id := by
  intro b b' h
  rcases h.consumers id with ⟨hc, hc'⟩ | ⟨c, permit, hc, hc', hp⟩
  · simp only [Broker.seek, hc, hc']
    exact .mk _ h
  · cases lax with
    | true =>
      -- one look on either side
      refine (seek_once (h.unarmed rfl) hc).symm.trans (Alike.trans ?_
        (seek_once (h.symm.unarmed rfl) hc'))
      obtain ⟨a, b₁, b₁', he, he', h⟩ := (h.look id c).cases
      rw [look_permit b' id c permit, he, he']
      cases a with
      | some result => exact .mk _ h
      | none => exact .mk _ (h.park id)
    | false =>
      obtain rfl := hp rfl
      exact (congruence false).seek h (hc'.trans hc.symm)

theorem returns (lax : Bool) (id : ConsumerId) : Returns (Twin lax) id :=
  fun h result => h.note (.returned id result)

/-- Where wakes may be kept on one side only, a fault of a look can tell the two apart. -/
theorem arms {call : StoreCall} (hcall : lax = true → call ≠ .fetchNext) (fault : Fault) :
    Arms (Twin lax) call fault := fun {b b'} h =>
  { h with
    faults := fun other => by rw [Faults.live_put, Faults.live_put, h.faults]
    unarmed := fun hl => by
      rw [Faults.live_put, if_neg (Ne.symm (hcall hl))]
      exact h.unarmed hl }

end Twin

end Broker

end TopicQueue

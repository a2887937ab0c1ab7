import TopicQueue.Proofs.CongruentScenes
import TopicQueue.Proofs.Twins

namespace TopicQueue

/-- A journal goes on, and no call of the consumer has returned since, but where it was refused
because of a message that the consumer held all along. -/
def Journal.Unanswered (who : ConsumerId) (held : Bool) (earlier later : Journal) : Prop :=
  ∃ new, later = new ++ earlier ∧ ∀ e ∈ new, ∀ result, e.note = .returned who result →
    result = .error .alreadyHolding ∧ held = true

/-- After the earlier journal both tell of a look at the topic that found nothing. There the second
goes on to tell of a wake of the consumer, and of another look that found nothing. -/
def Journal.LooksTwice (who : ConsumerId) (topic : String) (earlier j j' : Journal) : Prop :=
  ∃ span before, earlier <:+ before ∧ j = ⟨span, .called .fetchNext topic none⟩ :: before ∧
    j' = ⟨span, .called .fetchNext topic none⟩ :: ⟨span, .woken who topic⟩ :: j

theorem Consumer.Recedes.trans {c d e : Consumer} (h : c.Recedes d) (h' : d.Recedes e) :
    c.Recedes e where
  topic := h'.topic.trans h.topic
  permit := h'.permit.trans h.permit
  holding he := h.holding (h'.holding he)
  begun he := h.begun (h'.begun he)

namespace Journal.Unanswered

variable {who : ConsumerId} {held : Bool} {j j₁ j₂ : Journal}

theorem refl (who : ConsumerId) (held : Bool) (j : Journal) : Unanswered who held j j :=
  ⟨[], rfl, nofun⟩

theorem trans (h : Unanswered who held j j₁) (h' : Unanswered who held j₁ j₂) :
    Unanswered who held j j₂ := by
  obtain ⟨new, rfl, hnew⟩ := h
  obtain ⟨new', rfl, hnew'⟩ := h'
  refine ⟨new' ++ new, (List.append_assoc ..).symm, fun e he => ?_⟩
  rcases List.mem_append.mp he with he | he
  · exact hnew' e he
  · exact hnew e he

theorem note (h : Unanswered who held j j₁) {n : Note}
    (hn : ∀ result, n = .returned who result → result = .error .alreadyHolding ∧ held = true)
    (span : Option RequestSpan) : Unanswered who held j (⟨span, n⟩ :: j₁) := by
  refine h.trans ⟨[⟨span, n⟩], rfl, fun e he => ?_⟩
  rw [List.mem_singleton.mp he]
  exact hn

end Journal.Unanswered

namespace Broker

/-- The brokers differ in the notes below a point of the journal, and in nothing else. -/
def Noted (j j' : Journal) (b b' : Broker) : Prop :=
  ∃ new, b.journal = new ++ j ∧ b' = { b with journal := new ++ j' }

/-- The consumer keeps a wake in the second broker, and none in the first, and that is all. It has not
looked at its topic since the journal was `fork` and the consumer was `c₀`. -/
structure Kept (who : ConsumerId) (c₀ : Consumer) (fork : Journal) (b b' : Broker) : Prop where
  consumer : ∃ c, b.consumer? who = some c ∧ c₀.Recedes c ∧
    b' = b.setConsumer who { c with permit := true }
  unarmed : b.faults.live .fetchNext = none
  unanswered : Journal.Unanswered who c₀.holding fork b.journal

/-- The wake is kept, or it is gone. It may have been gone for no more than another look. -/
inductive Beside (who : ConsumerId) (c₀ : Consumer) (fork : Journal) (spends : Prop)
    (b b' : Broker) : Prop where
  | kept (h : Kept who c₀ fork b b')
  | gone {j j' : Journal} (h : Noted j j' b b')
      (hj : j' = j ∨ spends ∧ Journal.LooksTwice who c₀.topic fork j j')

variable {b b' : Broker} {who other id : ConsumerId} {c₀ c d : Consumer} {fork j j' : Journal}
variable {spends : Prop}

-- A task of a plain consumer, where none of its calls is under way.

theorem runNext_idle (hc : b.consumer? id = some c) (hw : c.wait = .idle) : b.runNext id = b := by
  simp only [runNext, hc, hw]

theorem runNext_holding (hc : b.consumer? id = some c) (hw : c.wait = .asked)
    (hh : c.holding = true) :
    b.runNext id = (b.setConsumer id { c with wait := .idle }).note
      (.returned id (.error .alreadyHolding)) := by
  simp only [runNext, hc, hw, begin, hh, if_true]

theorem runNext_asked (hc : b.consumer? id = some c) (hw : c.wait = .asked)
    (hh : c.holding = false) :
    b.runNext id = match b.seek id with
      | (none, b) => b
      | (some result, b) => b.note (.returned id result) := by
  simp only [runNext, hc, hw, begin, hh, Bool.false_eq_true, if_false]
  rcases b.seek id with ⟨_ | _, _⟩ <;> rfl

namespace Noted

theorem refl (b : Broker) : Noted b.journal b.journal b b := ⟨[], rfl, rfl⟩

theorem note (h : Noted j j' b b') (n : Note) : Noted j j' (b.note n) (b'.note n) := by
  obtain ⟨new, hj, rfl⟩ := h
  exact ⟨⟨b.span, n⟩ :: new, congrArg (_ :: ·) hj, rfl⟩

theorem similar (h : Noted j j' b b') : Similar b b' := by
  obtain ⟨new, hj, rfl⟩ := h
  refine ⟨rfl, rfl, rfl, rfl, rfl, rfl, fun id => ?_⟩
  cases hc : b.consumer? id with
  | none => exact .inl ⟨rfl, hc⟩
  | some c => exact .inr ⟨c, c.permit, rfl, hc⟩

/-- Nothing that a broker does depends on its journal. -/
theorem congruence (j j' : Journal) : Congruence (Noted j j') where
  similar h := h.similar
  note h _ := h.note _
  change {b b' id c d permit} h hc hc' hd := by
    obtain ⟨new, hj, rfl⟩ := h
    have hsame : { c with permit } = c := Option.some.inj (hc'.symm.trans hc)
    obtain rfl : permit = d.permit := (congrArg Consumer.permit hsame).trans hd.permit.symm
    exact ⟨new, hj, rfl⟩
  level h _ _ := by
    obtain ⟨new, hj, rfl⟩ := h
    exact ⟨new, hj, rfl⟩
  remove h _ := by
    obtain ⟨new, hj, rfl⟩ := h
    exact ⟨new, hj, rfl⟩
  trip h _ := by
    obtain ⟨new, hj, rfl⟩ := h
    exact ⟨rfl, new, hj, rfl⟩
  adjust h _ _ _ _ _ _ := by
    obtain ⟨new, hj, rfl⟩ := h
    exact ⟨new, hj, rfl⟩

theorem looks (j j' : Journal) (id : ConsumerId) : LooksAlike (Noted j j') id := by
  rintro b b' ⟨new, hj, rfl⟩
  exact (congruence j j').seek ⟨new, hj, rfl⟩ rfl

theorem returns (j j' : Journal) (id : ConsumerId) : Returns (Noted j j') id :=
  fun h result => h.note (.returned id result)

theorem arms (j j' : Journal) (call : StoreCall) (fault : Fault) :
    Arms (Noted j j') call fault := by
  rintro b b' ⟨new, hj, rfl⟩
  exact ⟨new, hj, rfl⟩

end Noted

namespace Kept

/-- It has been kept since now. -/
theorem refork (h : Kept who c₀ fork b b') : Kept who c₀ b.journal b b' :=
  ⟨h.consumer, h.unarmed, .refl ..⟩

/-- It has been kept since the earlier time. -/
theorem since (h : Kept who c₀ j b b') (hj : Journal.Unanswered who c₀.holding fork j) :
    Kept who c₀ fork b b' :=
  ⟨h.consumer, h.unarmed, hj.trans h.unanswered⟩

theorem journal (h : Kept who c₀ fork b b') : b'.journal = b.journal := by
  obtain ⟨⟨c, -, -, rfl⟩, -, -⟩ := h
  rfl

theorem note (h : Kept who c₀ fork b b') {n : Note} (hn : ∀ result, n = .returned who result →
    result = .error .alreadyHolding ∧ c₀.holding = true) :
    Kept who c₀ fork (b.note n) (b'.note n) := by
  obtain ⟨⟨c, hc, hd, rfl⟩, hf, hj⟩ := h
  exact ⟨⟨c, hc, hd, rfl⟩, hf, hj.note hn b.span⟩

theorem similar (h : Kept who c₀ fork b b') : Similar b b' := by
  obtain ⟨⟨c, hc, -, rfl⟩, -, -⟩ := h
  refine ⟨rfl, rfl, rfl, rfl, rfl, rfl, fun id => ?_⟩
  rw [consumer?_setConsumer]
  split
  · rename_i hid
    exact .inr ⟨c, true, hid ▸ hc, rfl⟩
  · cases hd : b.consumer? id with
    | none => exact .inl ⟨rfl, rfl⟩
    | some d => exact .inr ⟨d, d.permit, rfl, rfl⟩

/-- What becomes of another consumer becomes of it in both. -/
theorem put (h : Kept who c₀ fork b b') (hid : id ≠ who) (d : Consumer) :
    Kept who c₀ fork (b.setConsumer id d) (b'.setConsumer id d) := by
  obtain ⟨⟨c, hc, hd, rfl⟩, hf, hj⟩ := h
  refine ⟨⟨c, ?_, hd, ?_⟩, hf, hj⟩
  · rw [consumer?_setConsumer, if_neg (Ne.symm hid), hc]
  · simp only [setConsumer, Table.put_comm hc (Ne.symm hid)]

theorem change (h : Kept who c₀ fork b b') {permit : Bool} (hc : b.consumer? id = some c)
    (hc' : b'.consumer? id = some { c with permit }) (hd : c.Recedes d) :
    Kept who c₀ fork (b.setConsumer id d) (b'.setConsumer id { d with permit }) := by
  have hkept := h
  obtain ⟨⟨c₁, hc₁, hd₁, rfl⟩, hf, hj⟩ := h
  by_cases hid : id = who
  · subst hid
    obtain rfl : c = c₁ := Option.some.inj (hc.symm.trans hc₁)
    rw [consumer?_setConsumer_self] at hc'
    obtain rfl : true = permit := congrArg Consumer.permit (Option.some.inj hc')
    exact ⟨⟨d, consumer?_setConsumer_self .., hd₁.trans hd, by simp [setConsumer]⟩, hf, hj⟩
  · rw [consumer?_setConsumer, if_neg hid, hc] at hc'
    obtain rfl : d.permit = permit :=
      hd.permit.trans (congrArg Consumer.permit (Option.some.inj hc'))
    exact hkept.put hid d

/-- A consumer that is set to the same in both keeps no wake of its own. -/
theorem level (h : Kept who c₀ fork b b') (id : ConsumerId) (d : Consumer) :
    Beside who c₀ fork spends (b.setConsumer id d) (b'.setConsumer id d) := by
  by_cases hid : id = who
  · subst hid
    obtain ⟨⟨c, -, -, rfl⟩, -, -⟩ := h
    have hsame : (b.setConsumer id { c with permit := true }).setConsumer id d =
        b.setConsumer id d := by
      simp [setConsumer]
    rw [hsame]
    exact .gone (.refl _) (.inl rfl)
  · exact .kept (h.put hid d)

theorem remove (h : Kept who c₀ fork b b') (id : ConsumerId) :
    Beside who c₀ fork spends { b with consumers := b.consumers.remove id }
      { b' with consumers := b'.consumers.remove id } := by
  obtain ⟨⟨c, hc, hd, rfl⟩, hf, hj⟩ := h
  by_cases hid : id = who
  · subst hid
    have hsame : (b.setConsumer id { c with permit := true }).consumers.remove id =
        b.consumers.remove id := Table.remove_put_self ..
    rw [hsame]
    exact .gone (.refl _) (.inl rfl)
  · refine .kept ⟨⟨c, ?_, hd, ?_⟩, hf, hj⟩
    · exact (Table.look_remove_of_ne _ (Ne.symm hid)).trans hc
    · simp only [setConsumer, Table.remove_put_of_ne _ _ hid]

/-- The consumer looks at its topic, and the wake is gone. Where there is nothing to claim, it has
stood for another look. -/
theorem seek (h : Kept who c₀ fork b b') (hp : c₀.permit = false) :
    ∃ j j', (j' = j ∨ Journal.LooksTwice who c₀.topic fork j j') ∧
      Alike (Noted j j') (b.seek who) (b'.seek who) := by
  obtain ⟨⟨c, hc, hd, rfl⟩, hf, ⟨new, hj, -⟩⟩ := h
  have hlook : (b.setConsumer who { c with permit := true }).look who { c with permit := true } =
      b.look who c := by
    simp [look, setConsumer]
  unfold Broker.seek
  rw [hc, consumer?_setConsumer_self]
  dsimp only
  rw [hlook, hd.permit, hp]
  cases hl : b.look who c with
  | mk a b₁ =>
    cases a with
    | some result => exact ⟨b₁.journal, b₁.journal, .inl rfl, .mk _ (.refl b₁)⟩
    | none =>
      obtain ⟨hb₁, hagain⟩ := look_again hf hl
      simp only [if_true, Bool.false_eq_true, if_false]
      rw [look_permit _ who c true, hagain]
      dsimp only
      rw [park_unfound hl, park_unfound hagain]
      refine ⟨b₁.journal, _, .inr ⟨b.span, b.journal, ⟨new, hj.symm⟩, ?_, ?_⟩, .mk _ ⟨[], rfl, rfl⟩⟩
      · rw [hb₁, ← hd.topic]
        rfl
      · rw [hb₁, ← hd.topic]
        rfl

/-- The task of a plain consumer's call, if there is one, begins it. A consumer that still holds a
message is refused, and does not look for another. -/
theorem runNext (h : Kept who c₀ fork b b') (hp : c₀.permit = false)
    (hw : c₀.wait.isBegun = false) :
    Beside who c₀ fork True (b.runNext who) (b'.runNext who) := by
  obtain ⟨c, hc, hd, he⟩ := h.consumer
  have hc' : b'.consumer? who = some { c with permit := true } := by
    rw [he, consumer?_setConsumer_self]
  cases hwait : c.wait with
  | idle =>
    rw [runNext_idle hc hwait, runNext_idle hc' hwait]
    exact .kept h
  | asked =>
    cases hh : c.holding with
    | true =>
      rw [runNext_holding hc hwait hh, runNext_holding hc' hwait hh]
      have hidle : c.Recedes { c with wait := .idle } := ⟨rfl, rfl, fun hh => hh, nofun⟩
      refine .kept ((h.change hc hc' hidle).note fun result he => ?_)
      cases he
      exact ⟨rfl, hd.holding hh⟩
    | false =>
      rw [runNext_asked hc hwait hh, runNext_asked hc' hwait hh]
      obtain ⟨j, j', hj, hseek⟩ := h.seek hp
      obtain ⟨a, b₁, b₁', hb, hb', hnoted⟩ := hseek.cases
      have hspent := hj.imp_right (And.intro trivial)
      rw [hb, hb']
      cases a with
      | none => exact .gone hnoted hspent
      | some result => exact .gone (hnoted.note _) hspent
  | parked | woken =>
    have hbegun := hd.begun (by rw [hwait]; rfl)
    rw [hw] at hbegun
    cases hbegun

end Kept

namespace Beside

/-- Whatever happens to a broker with a kept wake beside the same without it happens to both. -/
theorem congruence (who : ConsumerId) (c₀ : Consumer) (fork : Journal) (spends : Prop) :
    Congruence (Beside who c₀ fork spends) where
  similar h := by
    cases h with
    | kept h => exact h.similar
    | gone h _ => exact h.similar
  note h hn := by
    cases h with
    | kept h =>
      refine .kept (h.note fun result he => ?_)
      rw [he] at hn
      cases hn
    | gone h hj => exact .gone (h.note _) hj
  change h hc hc' hd := by
    cases h with
    | kept h => exact .kept (h.change hc hc' hd)
    | gone h hj => exact .gone ((Noted.congruence _ _).change h hc hc' hd) hj
  level h id c := by
    cases h with
    | kept h => exact h.level id c
    | gone h hj => exact .gone ((Noted.congruence _ _).level h id c) hj
  remove h id := by
    cases h with
    | kept h => exact h.remove id
    | gone h hj => exact .gone ((Noted.congruence _ _).remove h id) hj
  trip h call := by
    cases h with
    | kept h =>
      obtain ⟨⟨c, hc, hd, rfl⟩, hf, hj⟩ := h
      exact ⟨rfl, .kept ⟨⟨c, hc, hd, rfl⟩, Faults.live_trip hf call, hj⟩⟩
    | gone h hj =>
      obtain ⟨hfault, hleft⟩ := (Noted.congruence _ _).trip h call
      exact ⟨hfault, .gone hleft hj⟩
  adjust h store topics nextId ready span clock := by
    cases h with
    | kept h =>
      obtain ⟨⟨c, hc, hd, rfl⟩, hf, hj⟩ := h
      exact .kept ⟨⟨c, hc, hd, rfl⟩, hf, hj⟩
    | gone h hj =>
      exact .gone ((Noted.congruence _ _).adjust h store topics nextId ready span clock) hj

theorem looks_self (hp : c₀.permit = false) : LooksAlike (Beside who c₀ fork True) who := by
  intro b b' h
  cases h with
  | kept h =>
    obtain ⟨j, j', hj, hseek⟩ := h.seek hp
    exact hseek.mono fun h => .gone h (hj.imp_right (And.intro trivial))
  | gone h hj => exact (Noted.looks _ _ who h).mono fun h => .gone h hj

theorem looks_other (hne : id ≠ who) : LooksAlike (Beside who c₀ fork spends) id := by
  intro b b' h
  cases h with
  | kept h =>
    refine (congruence who c₀ fork spends).seek (.kept h) ?_
    obtain ⟨⟨c, -, -, rfl⟩, -, -⟩ := h
    rw [consumer?_setConsumer, if_neg hne]
  | gone h hj => exact (Noted.looks _ _ id h).mono fun h => .gone h hj

theorem returns_other (hne : id ≠ who) : Returns (Beside who c₀ fork spends) id := by
  intro b b' h result
  cases h with
  | kept h =>
    refine .kept (h.note fun other he => ?_)
    cases he
    exact absurd rfl hne
  | gone h hj => exact .gone (h.note _) hj

/-- A fault of a look would tell the two apart. -/
theorem arms {call : StoreCall} (hcall : call ≠ .fetchNext) (fault : Fault) :
    Arms (Beside who c₀ fork spends) call fault := by
  intro b b' h
  cases h with
  | kept h =>
    obtain ⟨⟨c, hc, hd, rfl⟩, hf, hj⟩ := h
    refine .kept ⟨⟨c, hc, hd, rfl⟩, ?_, hj⟩
    rw [Faults.live_put, if_neg (Ne.symm hcall)]
    exact hf
  | gone h hj => exact .gone (Noted.arms _ _ call fault h) hj

end Beside

end Broker

end TopicQueue

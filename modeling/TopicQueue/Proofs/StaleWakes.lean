import TopicQueue.Proofs.Errands
import TopicQueue.Proofs.KeptWakes
import TopicQueue.Proofs.Quiescence
import TopicQueue.Proofs.TwinServices

namespace TopicQueue

/-- A consumer is woken. -/
def Note.isWoke : Note → Bool
  | .woke .. => true
  | _ => false

theorem Journal.since_append (new earlier : Journal) :
    since (new ++ earlier) earlier = new.reverse := by
  simp [since]

namespace Broker

/-- The wakes of consumers, the latest first. -/
def wakes (b : Broker) : History := b.notes.filter (·.isWoke)

/-- The consumer keeps a wake, or keeps none. -/
def keep (b : Broker) (id : ConsumerId) (permit : Bool) : Broker :=
  match b.consumer? id with
  | none => b
  | some c => b.setConsumer id { c with permit }

/-- To keep what is kept already changes nothing. -/
theorem keep_same {b : Broker} {id : ConsumerId} {c : Consumer} (hc : b.consumer? id = some c) :
    b.keep id c.permit = b := by
  rw [keep, hc]
  simp only [setConsumer, Table.put_look hc]

theorem keep_some (b : Broker) (id : ConsumerId) : ∃ permit, b.keep id permit = b := by
  cases hc : b.consumer? id with
  | none => exact ⟨false, by rw [keep, hc]⟩
  | some c => exact ⟨c.permit, keep_same hc⟩

theorem Kept.eq_keep {b b' : Broker} {who : ConsumerId} {c₀ : Consumer} {fork : Journal}
    (h : Kept who c₀ fork b b') : b' = b.keep who true := by
  obtain ⟨⟨c, hc, -, rfl⟩, -, -⟩ := h
  rw [keep, hc]

theorem kept_keep {b : Broker} {who : ConsumerId} {c : Consumer} (hc : b.consumer? who = some c)
    (hunarmed : b.faults.live .fetchNext = none) :
    Kept who { c with permit := false } (b.keep who false).journal (b.keep who false)
      (b.keep who true) := by
  have hkeep : ∀ permit, b.keep who permit = b.setConsumer who { c with permit } := by
    intro permit
    rw [keep, hc]
  have hrecedes : Consumer.Recedes { c with permit := false } { c with permit := false } :=
    ⟨rfl, rfl, fun hh => hh, fun hw => hw⟩
  rw [hkeep, hkeep]
  refine ⟨⟨_, consumer?_setConsumer_self .., hrecedes, ?_⟩, hunarmed, .refl ..⟩
  simp [setConsumer]

/-- No more than the one look has been made on account of the wake. -/
theorem Noted.errands {b b' : Broker} {j j' fork : Journal} {who : ConsumerId} {topic : String}
    (h : Noted j j' b b') (ht : Journal.LooksTwice who topic fork j j') :
    ∃ later earlier, b.errands = later ++ earlier ∧
      b'.errands = later ++ ⟨.fetchNext, topic, none⟩ :: earlier := by
  obtain ⟨new, hj, rfl⟩ := h
  obtain ⟨span, before, -, rfl, rfl⟩ := ht
  refine ⟨(new.map (·.note)).filterMap Note.errand?, ⟨.fetchNext, topic, none⟩ ::
    (before.map (·.note)).filterMap Note.errand?, ?_, ?_⟩
  · simp [Broker.errands, notes, hj, Note.errand?]
  · simp [Broker.errands, notes, Note.errand?, List.filterMap_cons]

theorem Noted.wakes {b b' : Broker} {j j' fork : Journal} {who : ConsumerId} {topic : String}
    (h : Noted j j' b b') (ht : Journal.LooksTwice who topic fork j j') : b'.wakes = b.wakes := by
  obtain ⟨new, hj, rfl⟩ := h
  obtain ⟨span, before, -, rfl, rfl⟩ := ht
  simp [Broker.wakes, notes, hj, Note.isWoke]

theorem Kept.twin {b b' : Broker} {who : ConsumerId} {c₀ : Consumer} {fork : Journal}
    (h : Kept who c₀ fork b b') : Twin true b b' where
  store := h.similar.store
  topics := h.similar.topics
  nextId := h.similar.nextId
  ready := h.similar.ready
  span := h.similar.span
  clock := h.similar.clock
  outputs := by rw [outputs, h.journal, outputs]
  faults _ := by
    obtain ⟨⟨c, -, -, rfl⟩, -, -⟩ := h
    rfl
  unarmed _ := h.unarmed
  consumers id := (h.similar.consumers id).imp_right fun ⟨c, permit, hc, hc'⟩ =>
    ⟨c, permit, hc, hc', nofun⟩

theorem outputs_append {b b' : Broker} {new : Journal} (h : b'.journal = new ++ b.journal) :
    b'.outputs = new.filterMap (·.note.output?) ++ b.outputs := by
  rw [outputs, h, List.filterMap_append, outputs]

end Broker

namespace Service
open Broker

variable {s s' : Service} {who id : ConsumerId} {c₀ : Consumer} {fork j j' : Journal}

/-- After so many tasks it is the consumer's turn, and it has kept the wake up to here: no call of it
is under way that has run before. Its task runs, and the wake stands for another look. -/
structure Spends (who : ConsumerId) (c₀ : Consumer) (fork : Journal) (turns : Nat)
    (j j' : Journal) (s s' : Service) : Prop where
  turn : ∃ left left', (s.runMany turns).dequeue = some (who, left) ∧
    (s'.runMany turns).dequeue = some (who, left') ∧ Related (Kept who c₀ fork) left left'
  twice : Journal.LooksTwice who c₀.topic (s.runMany turns).broker.journal j j'
  spent : Related (Noted j j') (s.runMany (turns + 1)) (s'.runMany (turns + 1))

theorem runMany_succ {left : Service} (h : s.dequeue = some (id, left)) (turns : Nat) :
    s.runMany (turns + 1) = (left.run id).runMany turns := by
  rw [runMany, h]

namespace Related

theorem noted_run (h : Related (Noted j j') s s') (id : ConsumerId) :
    Related (Noted j j') (s.run id) (s'.run id) :=
  h.run (Noted.congruence j j') (Noted.looks j j' id) (Noted.returns j j' id)

theorem noted_runMany (h : Related (Noted j j') s s') (turns : Nat) :
    Related (Noted j j') (s.runMany turns) (s'.runMany turns) :=
  h.runMany (Noted.congruence j j') (Noted.looks j j') (Noted.returns j j') turns

/-- The task of the consumer itself: a session, or a plain consumer's call. -/
theorem kept_run (h : Related (Kept who c₀ fork) s s') (hp : c₀.permit = false)
    (hw : c₀.wait.isBegun = false) :
    Related (Beside who c₀ fork True) (s.run who) (s'.run who) := by
  cases hs : s.sessions.look who with
  | some session =>
    have hbeside : Related (Beside who c₀ fork True) s s' := h.mono .kept
    exact hbeside.runSession (Beside.congruence who c₀ fork True) (Beside.looks_self hp) hs
  | none =>
    simp only [Service.run, hs, h.sessions]
    exact ⟨h.broker.runNext hp hw, rfl⟩

/-- A task runs. If it is not one that spends the wake, then the wake is kept, or gone without a
trace. -/
theorem beside_run (h : Related (Beside who c₀ fork False) s s') (hp : c₀.permit = false)
    (hw : c₀.wait.isBegun = false) (id : ConsumerId) :
    Related (Beside who c₀ fork False) (s.run id) (s'.run id) ∨
    id = who ∧ Related (Kept who c₀ fork) s s' ∧ ∃ j j',
      Journal.LooksTwice who c₀.topic s.broker.journal j j' ∧
      Related (Noted j j') (s.run id) (s'.run id) := by
  by_cases hid : id = who
  · subst hid
    rcases h.broker with hkept | ⟨hgone, rfl | ⟨hfalse, -⟩⟩
    · obtain ⟨hran | ⟨hran, rfl | ⟨-, htwice⟩⟩, hsessions⟩ :=
        kept_run ⟨hkept.refork, h.sessions⟩ hp hw
      · exact .inl ⟨.kept (hran.since hkept.unanswered), hsessions⟩
      · exact .inl ⟨.gone hran (.inl rfl), hsessions⟩
      · exact .inr ⟨rfl, ⟨hkept, h.sessions⟩, _, _, htwice, hran, hsessions⟩
    · have hran := noted_run ⟨hgone, h.sessions⟩ id
      exact .inl ⟨.gone hran.broker (.inl rfl), hran.sessions⟩
    · cases hfalse
  · exact .inl (h.run (Beside.congruence who c₀ fork False) (Beside.looks_other hid)
      (Beside.returns_other hid))

theorem beside_runMany (h : Related (Beside who c₀ fork False) s s') (hp : c₀.permit = false)
    (hw : c₀.wait.isBegun = false) (turns : Nat) :
    Related (Beside who c₀ fork False) (s.runMany turns) (s'.runMany turns) ∨
    ∃ n j j', Spends who c₀ fork n j j' s s' ∧
      Related (Noted j j') (s.runMany turns) (s'.runMany turns) := by
  induction turns generalizing s s' with
  | zero => exact .inl h
  | succ turns ih =>
    rcases h.dequeue (Beside.congruence who c₀ fork False) with
      ⟨hd, hd'⟩ | ⟨id, t, t', hd, hd', htaken⟩
    · simp only [Service.runMany, hd, hd']
      exact .inl h
    · rw [runMany_succ hd, runMany_succ hd']
      rcases htaken.beside_run hp hw id with hran | ⟨rfl, hkept, j, j', htwice, hran⟩
      · rcases ih hran with hleft | ⟨n, j, j', ⟨hturn, htwice, hspent⟩, hleft⟩
        · exact .inl hleft
        · refine .inr ⟨n + 1, j, j', ⟨?_, ?_, ?_⟩, hleft⟩
          · rwa [runMany_succ hd, runMany_succ hd']
          · rwa [runMany_succ hd]
          · rwa [runMany_succ hd, runMany_succ hd']
      · obtain ⟨rest, -, htook, -⟩ := dequeue_some hd
        rw [htook] at htwice
        refine .inr ⟨0, j, j', ⟨⟨t, t', hd, hd', hkept⟩, htwice, ?_⟩, hran.noted_runMany turns⟩
        rwa [runMany_succ hd, runMany_succ hd']

theorem beside_drain (h : Related (Beside who c₀ fork False) s s') (hp : c₀.permit = false)
    (hw : c₀.wait.isBegun = false) :
    Related (Beside who c₀ fork False) s.drain s'.drain ∨
    ∃ turns j j', Spends who c₀ fork turns j j' s s' ∧ Related (Noted j j') s.drain s'.drain := by
  rw [← runMany_enough (Nat.le_max_left s.weight s'.weight),
    ← runMany_enough (Nat.le_max_right s.weight s'.weight)]
  exact h.beside_runMany hp hw _

end Related

end Service

namespace Scene
open Broker

variable {s s' : Scene} {who : ConsumerId} {c₀ c : Consumer} {fork j j' : Journal}
variable {steps : List (Int64 × Step)} {lax : Bool}

/-- The consumer keeps a wake, or keeps none. -/
def keep (s : Scene) (id : ConsumerId) (permit : Bool) : Scene :=
  s.setBroker (s.broker.keep id permit)

/-- The action of a step has been done, and no task has run yet. -/
def acted (s : Scene) (e : Int64 × Step) : Scene := ((s.atTime e.1).perform e.2.action).2

/-- What each step answers, and what consumers and sessions get in it. -/
def responses (s : Scene) : List (Int64 × Step) → List (Answer × List (String × Output))
  | [] => []
  | (time, t) :: steps =>
    let (answer, left) := (s.atTime time).step t
    (answer, left.outputs (left.broker.journal.since s.broker.journal)) :: left.responses steps

/-- What becomes in some steps of a wake that the consumer keeps in the second scene only. -/
inductive Fate (who : ConsumerId) (c₀ : Consumer) (fork : Journal) (s s' : Scene)
    (steps : List (Int64 × Step)) : Prop where
  /-- It is kept still. -/
  | kept (h : Related (Kept who c₀ fork) (s.runTimed steps) (s'.runTimed steps))
  /-- It is gone without a trace. -/
  | gone (h : s'.runTimed steps = s.runTimed steps)
  /-- It has stood for one more look of the consumer at its topic, among the tasks of one of the
  steps. That is noted, and is all that is left of it. -/
  | spent {before after : List (Int64 × Step)} {e : Int64 × Step} {turns : Nat} {j j' : Journal}
      (hsteps : steps = before ++ e :: after) (hprompt : e.2.defer = false)
      (h : Service.Spends who c₀ fork turns j j' ((s.runTimed before).acted e).service
        ((s'.runTimed before).acted e).service)
      (hleft : Related (Noted j j') (s.runTimed steps) (s'.runTimed steps))

theorem runTimed_cons (s : Scene) (e : Int64 × Step) (steps : List (Int64 × Step)) :
    s.runTimed (e :: steps) = ((s.atTime e.1).step e.2).2.runTimed steps := rfl

theorem step_deferred {e : Int64 × Step} (h : e.2.defer = true) :
    ((s.atTime e.1).step e.2).2 = s.acted e := by
  simp only [step, h, if_true]
  rfl

theorem step_prompt {e : Int64 × Step} (h : e.2.defer = false) :
    ((s.atTime e.1).step e.2).2 = { s.acted e with service := (s.acted e).service.drain } := by
  simp only [step, h, Bool.false_eq_true, if_false]
  rfl

theorem beside_acted (h : Related (Beside who c₀ fork False) s s') {e : Int64 × Step}
    (he : ∀ fault, e.2.action ≠ .fault .fetchNext fault) :
    Related (Beside who c₀ fork False) (s.acted e) (s'.acted e) :=
  ((h.atTime (Beside.congruence who c₀ fork False) e.1).perform
    (Beside.congruence who c₀ fork False)
    fun _ fault ha => Beside.arms (fun hcall => he fault (hcall ▸ ha)) fault).2

theorem noted_runTimed (h : Related (Noted j j') s s') (steps : List (Int64 × Step)) :
    Related (Noted j j') (s.runTimed steps) (s'.runTimed steps) :=
  h.runTimed (Noted.congruence j j') (Noted.looks j j') (Noted.returns j j')
    fun _ _ call fault _ => Noted.arms j j' call fault

theorem beside_step (h : Related (Beside who c₀ fork False) s s') (hp : c₀.permit = false)
    (hw : c₀.wait.isBegun = false) {e : Int64 × Step}
    (he : ∀ fault, e.2.action ≠ .fault .fetchNext fault) :
    Related (Beside who c₀ fork False) ((s.atTime e.1).step e.2).2 ((s'.atTime e.1).step e.2).2 ∨
    e.2.defer = false ∧ ∃ turns j j',
      Service.Spends who c₀ fork turns j j' (s.acted e).service (s'.acted e).service ∧
      Related (Noted j j') ((s.atTime e.1).step e.2).2 ((s'.atTime e.1).step e.2).2 := by
  have hacted := beside_acted h he
  cases hdefer : e.2.defer with
  | true =>
    rw [step_deferred hdefer, step_deferred hdefer]
    exact .inl hacted
  | false =>
    rw [step_prompt hdefer, step_prompt hdefer]
    rcases hacted.service.beside_drain hp hw with hleft | ⟨turns, j, j', hspends, hleft⟩
    · exact .inl (hacted.setService hleft)
    · exact .inr ⟨rfl, turns, j, j', hspends, ⟨hleft, hacted.callers, hacted.clients⟩⟩

theorem Related.eq_of_noted (h : Related (Noted j j) s s') : s' = s := by
  obtain ⟨⟨broker, sessions⟩, callers, clients⟩ := s'
  obtain ⟨⟨⟨new, hj, hbroker⟩, rfl⟩, rfl, rfl⟩ := h
  dsimp only at hbroker
  rw [hbroker, ← hj]

theorem beside_runTimed (h : Related (Beside who c₀ fork False) s s') (hp : c₀.permit = false)
    (hw : c₀.wait.isBegun = false)
    (hsteps : ∀ e ∈ steps, ∀ fault, e.2.action ≠ .fault .fetchNext fault) :
    Fate who c₀ fork s s' steps := by
  induction steps generalizing s s' with
  | nil =>
    obtain ⟨⟨hkept | ⟨hgone, rfl | ⟨hfalse, -⟩⟩, hsessions⟩, hcallers, hclients⟩ := h
    · exact .kept ⟨⟨hkept, hsessions⟩, hcallers, hclients⟩
    · exact .gone (Related.eq_of_noted ⟨⟨hgone, hsessions⟩, hcallers, hclients⟩)
    · cases hfalse
  | cons e steps ih =>
    have hrest := fun e he => hsteps e (List.mem_cons_of_mem _ he)
    rcases beside_step h hp hw (hsteps e List.mem_cons_self) with
      hleft | ⟨hprompt, turns, j, j', hspends, hleft⟩
    · cases ih hleft hrest with
      | kept h => exact .kept h
      | gone h => exact .gone h
      | @spent before after e' _ _ _ hlater hprompt h hleft =>
        have hsteps : e :: steps = (e :: before) ++ e' :: after := congrArg (e :: ·) hlater
        exact .spent hsteps hprompt h hleft
    · have hnoted := noted_runTimed hleft steps
      rw [← runTimed_cons, ← runTimed_cons] at hnoted
      have hsteps : e :: steps = [] ++ e :: steps := rfl
      exact .spent hsteps hprompt hspends hnoted

/-- A step only adds to the journal. -/
theorem journal_step (s : Scene) (e : Int64 × Step) :
    ∃ new, ((s.atTime e.1).step e.2).2.broker.journal = new ++ s.broker.journal := by
  have hself : Related (Noted s.broker.journal s.broker.journal) s s :=
    ⟨⟨.refl _, rfl⟩, rfl, rfl⟩
  obtain ⟨new, hnew, -⟩ := (noted_runTimed hself [e]).service.broker
  exact ⟨new, hnew⟩

theorem outputs_eq (s : Scene) (j : Journal) :
    s.outputs j = (j.filterMap (·.note.output?)).filterMap fun o =>
      (s.nameOf? o.1).map fun name => (name, o.2) := by
  rw [List.filterMap_filterMap]
  refine List.filterMap_congr fun e _ => ?_
  rcases e.note.output? with _ | ⟨id, output⟩
  · rfl
  · cases hname : s.nameOf? id <;> simp [hname]

/-- Scenes that nobody can tell apart respond alike. -/
theorem Twin.responses (h : Twin lax s s')
    (ha : lax = true → ∀ e ∈ steps, ∀ fault, e.2.action ≠ .fault .fetchNext fault) :
    s'.responses steps = s.responses steps := by
  induction steps generalizing s s' with
  | nil => rfl
  | cons e steps ih =>
    obtain ⟨hanswer, hleft⟩ := (h.atTime e.1).step fun hl => ha hl e List.mem_cons_self
    have hrest := ih hleft fun hl e he => ha hl e (List.mem_cons_of_mem _ he)
    obtain ⟨new, hnew⟩ := journal_step s e
    obtain ⟨new', hnew'⟩ := journal_step s' e
    have hgiven : new'.filterMap (·.note.output?) = new.filterMap (·.note.output?) := by
      have hbefore : s'.broker.outputs = s.broker.outputs := h.service.broker.outputs
      have hafter : ((s'.atTime e.1).step e.2).2.broker.outputs =
          ((s.atTime e.1).step e.2).2.broker.outputs := hleft.service.broker.outputs
      rw [outputs_append hnew', outputs_append hnew, hbefore] at hafter
      exact List.append_cancel_right hafter
    have hnames : ((s'.atTime e.1).step e.2).2.nameOf? = ((s.atTime e.1).step e.2).2.nameOf? := by
      funext id
      rw [nameOf?, nameOf?, hleft.callers, hleft.clients]
    simp only [Scene.responses, hanswer, hrest, hnew, hnew', Journal.since_append, outputs_eq,
      List.filterMap_reverse, hgiven, hnames]

/-- What has come in some steps of a wake that the consumer keeps in the second scene only. -/
structure Harmless (who : ConsumerId) (c₀ : Consumer) (s s' : Scene)
    (steps : List (Int64 × Step)) : Prop where
  responses : s'.responses steps = s.responses steps
  /-- Besides the wake and the journal all is the same: what is stored and claimed, who holds a
  message, who waits, who is registered, the sessions, and the tasks that are to run. -/
  left : ∃ permit journal, s'.runTimed steps =
    (s.runTimed steps).setBroker { (s.runTimed steps).broker.keep who permit with journal }
  /-- The same consumers have been woken, in the same order. -/
  wakes : (s'.runTimed steps).broker.wakes = (s.runTimed steps).broker.wakes
  /-- The store has been asked for the same; at most it has been asked once more for the next entry
  of the consumer's topic, where it had none to give. -/
  errands : (s'.runTimed steps).broker.errands = (s.runTimed steps).broker.errands ∨
    ∃ later earlier, (s.runTimed steps).broker.errands = later ++ earlier ∧
      (s'.runTimed steps).broker.errands = later ++ ⟨.fetchNext, c₀.topic, none⟩ :: earlier
  fate : Fate who c₀ s.broker.journal s s' steps

theorem Related.eq_setBroker {R : Broker → Broker → Prop} (h : Related R s s') :
    s' = s.setBroker s'.broker := by
  obtain ⟨⟨broker, sessions⟩, callers, clients⟩ := s'
  obtain ⟨⟨-, rfl⟩, rfl, rfl⟩ := h
  rfl

/-- A wake that is gone has done no harm, and one that is kept has done none yet. -/
theorem Fate.harmless (hfate : Fate who c₀ s.broker.journal s s' steps)
    (hresponses : s'.responses steps = s.responses steps) : Harmless who c₀ s s' steps := by
  obtain ⟨permit, hsame⟩ := (s.runTimed steps).broker.keep_some who
  have hfate' := hfate
  cases hfate with
  | kept h =>
    have hkept : (s'.runTimed steps).broker = (s.runTimed steps).broker.keep who true :=
      h.service.broker.eq_keep
    have hjournal : (s'.runTimed steps).broker.journal = (s.runTimed steps).broker.journal :=
      h.service.broker.journal
    refine ⟨hresponses, ⟨true, (s'.runTimed steps).broker.journal, ?_⟩, ?_, .inl ?_, hfate'⟩
    · rw [← hkept]
      exact h.eq_setBroker
    · rw [Broker.wakes, Broker.notes, hjournal, Broker.wakes, Broker.notes]
    · rw [Broker.errands, Broker.notes, hjournal, Broker.errands, Broker.notes]
  | gone h =>
    refine ⟨hresponses, ⟨permit, (s.runTimed steps).broker.journal, ?_⟩, by rw [h],
      .inl (by rw [h]), hfate'⟩
    rw [h, hsame]
    rfl
  | spent hsteps hprompt h hleft =>
    refine ⟨hresponses, ⟨permit, (s'.runTimed steps).broker.journal, ?_⟩,
      hleft.service.broker.wakes h.twice, .inr (hleft.service.broker.errands h.twice), hfate'⟩
    obtain ⟨new, -, hb⟩ := hleft.service.broker
    have hjournal : (s'.runTimed steps).broker.journal = new ++ _ := congrArg Broker.journal hb
    rw [hsame, hjournal, hleft.eq_setBroker]
    exact congrArg _ hb

/-- Where no call of a consumer is under way, it makes no difference whether the consumer keeps a
wake, unless looks are made to fail. The scene itself is one of the two that are compared. -/
theorem stale_wake_harmless (hc : s.broker.consumer? who = some c) (hidle : c.wait = .idle)
    (hunarmed : s.broker.faults.live .fetchNext = none)
    (hsteps : ∀ e ∈ steps, ∀ fault, e.2.action ≠ .fault .fetchNext fault) :
    s.keep who c.permit = s ∧
      Harmless who { c with permit := false } (s.keep who false) (s.keep who true) steps := by
  refine ⟨by rw [keep, keep_same hc]; rfl, ?_⟩
  have hkept : Related (Kept who { c with permit := false } (s.keep who false).broker.journal)
      (s.keep who false) (s.keep who true) := ⟨⟨kept_keep hc hunarmed, rfl⟩, rfl, rfl⟩
  have htwin : Twin true (s.keep who false) (s.keep who true) :=
    related_twin.mp (hkept.mono Kept.twin)
  have hfate := beside_runTimed (hkept.mono .kept) rfl (by rw [hidle]; rfl) hsteps
  exact hfate.harmless (htwin.responses fun _ => hsteps)

/-- Of two consumers that sleep the first is woken, and gives its call up before it runs. The wake
goes to the second, which gets the message; but the first keeps it too. -/
def givenUp : List Step :=
  [⟨.subscribe "t" "a", false⟩, ⟨.subscribe "t" "b", false⟩, ⟨.next "a" false, false⟩,
    ⟨.next "b" false, false⟩, ⟨.publish "t" [1], true⟩, ⟨.abort "a", false⟩]

/-- It asks again, while the second holds the message, and gets the one that comes next. -/
def askedAgain : List (Int64 × Step) :=
  [(7, ⟨.next "a" false, false⟩), (8, ⟨.publish "t" [2], true⟩), (9, ⟨.settle "b" .ack, false⟩)]

theorem given_up_wake_spent :
    (after givenUp).Reachable ∧
    (after givenUp).broker.consumer? 0 = some { topic := "t", permit := true } ∧
    Harmless 0 { topic := "t" } ((after givenUp).keep 0 false) (after givenUp) askedAgain ∧
    ((after givenUp).runTimed askedAgain).broker.fetches =
      (((after givenUp).keep 0 false).runTimed askedAgain).broker.fetches + 1 := by
  have hc : (after givenUp).broker.consumer? 0 = some { topic := "t", permit := true } := by
    decide +kernel
  have hsteps : ∀ e ∈ askedAgain, ∀ fault, e.2.action ≠ .fault .fetchNext fault := by
    simp [askedAgain]
  obtain ⟨hsame, hharmless⟩ := stale_wake_harmless hc rfl (by decide +kernel) hsteps
  rw [hsame] at hharmless
  exact ⟨reachable_after (by decide), hc, hharmless, by decide +kernel⟩

end Scene

end TopicQueue

import TopicQueue.Proofs.Ownership

namespace TopicQueue

namespace Broker

/-- Every entry is where it was, and no other. -/
def Keeps (b b' : Broker) : Prop := ∀ topic, b'.store.tree topic = b.store.tree topic

variable {b b' b'' : Broker} {id : ConsumerId} {c : Consumer}

theorem Keeps.refl (b : Broker) : b.Keeps b := fun _ => rfl

theorem Keeps.trans (h : b.Keeps b') (h' : b'.Keeps b'') : b.Keeps b'' :=
  fun topic => (h' topic).trans (h topic)

theorem keeps_store (h : b'.store = b.store) : b.Keeps b' :=
  fun topic => by rw [h]

theorem keeps_note (b : Broker) (n : Note) : b.Keeps (b.note n) := .refl b

theorem keeps_nack (b : Broker) (id : ConsumerId) : b.Keeps (b.settle id .nack).2 := by
  cases hc : b.consumer? id with
  | none =>
    simp only [settle, hc]
    exact .refl b
  | some c =>
    cases hh : c.holding with
    | false =>
      rw [settle_idle hc hh]
      exact .refl b
    | true =>
      rcases settle_cases hc hh .nack with ⟨e, f, he⟩ | ⟨s, f, hs, he⟩
      · rw [he]
        exact .refl b
      · rw [he]
        obtain ⟨-, key, -, rfl⟩ := Store.requeue_ok hs
        refine Keeps.trans ?_ (keeps_store (store_notify _ c.topic _))
        exact fun topic => rfl

/-- A verdict that fails leaves the store. -/
theorem keeps_failed {v : Verdict} {e : BrokerError} (h : b.settle id v = (.error e, b')) :
    b.Keeps b' := by
  cases hc : b.consumer? id with
  | none =>
    simp only [settle, hc, Prod.mk.injEq] at h
    rw [h.2]
    exact .refl b'
  | some c =>
    cases hh : c.holding with
    | false =>
      rw [settle_idle hc hh, Prod.mk.injEq] at h
      rw [h.2]
      exact .refl b'
    | true =>
      rcases settle_cases hc hh v with ⟨e', f, he⟩ | ⟨s, f, hs, he⟩
      · rw [he, Prod.mk.injEq] at h
        rw [← h.2]
        exact .refl b
      · rw [he] at h
        cases h

theorem Sought.keeps {rest : Consumer} {r : Option (Except BrokerError Bytes) × Broker}
    (h : Sought b id c rest r) : b.Keeps r.2 := by
  cases h with
  | cancelled | failed | nothing => exact .refl b
  | claimed f j s payload hc hs hj =>
    obtain ⟨-, -, key, value, rest, -, -, rfl⟩ := Store.fetchNext_some hs
    exact fun topic => rfl

theorem keeps_begin (b : Broker) (id : ConsumerId) : b.Keeps (b.begin id).2 := by
  cases hc : b.consumer? id with
  | none =>
    simp only [begin, hc]
    exact .refl b
  | some c =>
    rcases begin_cases hc with ⟨-, he⟩ | ⟨-, hs⟩
    · rw [he]
      exact .refl b
    · exact hs.keeps

theorem keeps_resume (b : Broker) (id : ConsumerId) : b.Keeps (b.resume id).2 := by
  cases hc : b.consumer? id with
  | none =>
    simp only [resume, hc]
    exact .refl b
  | some c =>
    cases hcancel : c.cancelled with
    | true =>
      rw [resume_cancelled hc hcancel]
      refine keeps_store ((congrArg Ledger.store (ledger_leave _ id)).trans ?_)
      split <;> rfl
    | false =>
      by_cases hwoken : c.wait = .woken
      · exact (keeps_note b _).trans (resume_woken hc hcancel hwoken).keeps
      · rw [resume_asleep hc hcancel hwoken]
        exact .refl b

theorem keeps_release (b : Broker) (id : ConsumerId) : b.Keeps (b.release id) := by
  have hforget : ∀ (b : Broker) (topic : String), b.Keeps (b.forget id topic) := fun b _ => .refl b
  cases hc : b.consumer? id with
  | none =>
    simp only [release, hc]
    exact .refl b
  | some c =>
    cases hh : c.holding with
    | false =>
      rw [release_idle hc hh]
      exact hforget b c.topic
    | true =>
      have hnack := keeps_nack b id
      rw [release_holding hc hh]
      split
      · rename_i b' he
        rw [he] at hnack
        exact hnack.trans (hforget (b'.note _) c.topic)
      · rename_i e b' he
        rw [he] at hnack
        exact hnack.trans (hforget (b'.note _) c.topic)

/-- Whether a verdict succeeds is no matter of the journal. -/
theorem settle_note (b : Broker) (n : Note) (id : ConsumerId) (v : Verdict) :
    ((b.note n).settle id v).1 = (b.settle id v).1 := by
  cases hc : b.consumer? id with
  | none => simp [settle, hc]
  | some c =>
    have hc' : (b.note n).consumer? id = some c := hc
    cases hh : c.holding with
    | false => rw [settle_idle hc hh, settle_idle hc' hh]
    | true =>
      rw [settle_holding hc hh, settle_holding hc' hh]
      unfold Broker.call
      simp only [note]
      cases b.faults.trip v.call with
      | mk fault faults =>
        cases fault with
        | some kind => rfl
        | none => cases v.apply c.topic b.store <;> rfl

end Broker

namespace Session
open Broker

variable {id : ConsumerId} {deaf : Bool}

theorem upheld_keeps (id : ConsumerId) : Upheld id Broker.Keeps where
  trans h h' := h.trans h'
  note _ := keeps_note _ _
  nack b := keeps_nack b id

theorem keeps_demand (deaf : Bool) (b : Broker) (id : ConsumerId) (command : Command) :
    b.Keeps (demand deaf b id command).2 := by
  have hbegin := keeps_begin b id
  unfold demand
  split
  · rename_i b' he
    rwa [he] at hbegin
  · rename_i result b' he
    rw [he] at hbegin
    have hconclude := (upheld_keeps id).conclude deaf b' command result
    split
    · rename_i b'' he'
      rw [he'] at hconclude
      exact hbegin.trans hconclude
    · rename_i b'' he'
      rw [he'] at hconclude
      exact hbegin.trans hconclude

/-- Only an ack can remove an entry, and not one that fails. -/
theorem keeps_obey {b : Broker} {command : Command}
    (h : command = .ack → ((b.note (.obeying .ack)).settle id .ack).1 ≠ .ok ()) :
    b.Keeps (obey deaf b id command).2 := by
  have hnote := keeps_note b (.obeying command)
  cases command with
  | init => exact hnote.trans (keeps_demand deaf _ id .init)
  | unknown text =>
    have hanswer := hnote.trans ((upheld_keeps id).answer deaf _ (.ofError .unrecognisedCommand))
    simp only [obey]
    split
    · rename_i b' he
      rwa [he] at hanswer
    · rename_i b' he
      rwa [he] at hanswer
  | nack =>
    have hnack := hnote.trans (keeps_nack _ id)
    rw [obey_settles (v := .nack) rfl]
    split
    · rename_i b' he
      rw [he] at hnack
      exact hnack.trans (keeps_demand deaf b' id .nack)
    · rename_i e b' he
      rw [he] at hnack
      exact (hnack.trans (keeps_note b' _)).trans ((upheld_keeps id).write deaf _ _)
  | ack =>
    rw [obey_settles (v := .ack) rfl]
    split
    · rename_i b' he
      exact absurd (congrArg Prod.fst he) (h rfl)
    · rename_i e b' he
      exact ((hnote.trans (keeps_failed he)).trans (keeps_note b' _)).trans
        ((upheld_keeps id).write deaf _ _)

theorem keeps_close (b : Broker) (id : ConsumerId) : b.Keeps (close b id) :=
  ((keeps_note b _).trans (keeps_release _ id)).trans (keeps_note _ _)

/-- What a session does without removing an entry: everything but to ack. -/
structure Harmless (id : ConsumerId) (deaf : Bool) (b : Broker) : Prop where
  /-- An unknown command, an INIT, a NACK. -/
  command : ∀ command, command ≠ .ack → b.Keeps (obey deaf b id command).2
  /-- An ACK whose commit fails. -/
  failedAck : (b.settle id .ack).1 ≠ .ok () → b.Keeps (obey deaf b id .ack).2
  /-- Input that does not decode, and a transport that fails. -/
  refused : ∀ error, b.Keeps (refuse deaf b id error)
  /-- The end of the input, and cancellation between commands. -/
  disconnected : ∀ error, b.Keeps (disconnect b id error)
  /-- A call for a message that goes on, or is cancelled. -/
  resumed : b.Keeps (b.resume id).2
  /-- An answer, be it written or not. -/
  concluded : ∀ command result, b.Keeps (conclude deaf b id command result).2
  closed : b.Keeps (close b id)

theorem harmless (id : ConsumerId) (deaf : Bool) (b : Broker) : Harmless id deaf b where
  command _ hne := keeps_obey fun he => absurd he hne
  failedAck h := keeps_obey fun _ => (settle_note b _ id .ack).symm ▸ h
  refused := (upheld_keeps id).refuse deaf b
  disconnected := (upheld_keeps id).disconnect b
  resumed := keeps_resume b id
  concluded := (upheld_keeps id).conclude deaf b
  closed := keeps_close b id

/-- An ack that succeeds removes the message at hand, and the rest of its command nothing. -/
theorem obey_ack {b : Broker} {c : Consumer} (h : b.ledger.Accounted)
    (hc : b.consumer? id = some c) (ha : (b.settle id .ack).1 = .ok ()) (deaf : Bool) :
    ∃ entry, b.Got id c.topic entry ∧
      b.store.tree c.topic = entry :: (obey deaf b id .ack).2.store.tree c.topic ∧
      ∀ topic, topic ≠ c.topic → (obey deaf b id .ack).2.store.tree topic = b.store.tree topic := by
  have hnoted : (b.note (.obeying .ack)).ledger.Accounted := by
    rwa [ledger_note (by rfl)]
  rw [← settle_note b (.obeying .ack)] at ha
  cases hs : (b.note (.obeying .ack)).settle id .ack with
  | mk answer b' =>
    rw [hs] at ha
    cases ha
    obtain ⟨entry, hgot, htree, -, hother⟩ := ack_store hnoted hc hs
    have hobey : obey deaf b id .ack = demand deaf b' id .ack := by
      rw [obey_settles (v := .ack) rfl, hs]
    have hkeeps := keeps_demand deaf b' id .ack
    rw [hobey]
    refine ⟨entry, hgot, ?_, ?_⟩
    · rw [hkeeps c.topic]
      exact htree
    · intro topic hne
      rw [hkeeps topic]
      exact hother topic hne

end Session

end TopicQueue

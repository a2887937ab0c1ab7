import TopicQueue.Proofs.Calls
import TopicQueue.Session

namespace TopicQueue

namespace Broker

variable {b b' : Broker} {id : ConsumerId}

/-- A consumer without a call. -/
def Resting (b : Broker) (id : ConsumerId) : Prop :=
  ∃ c, b.consumer? id = some c ∧ c.wait = .idle ∧ c.waiting = false

/-- A consumer whose call waits to be woken. -/
def Asleep (b : Broker) (id : ConsumerId) : Prop :=
  ∃ c, b.consumer? id = some c ∧ c.wait = .parked

/-- A call that has returned leaves its consumer at rest, one that has not leaves it asleep. -/
def Rests (id : ConsumerId) : Option (Except BrokerError Bytes) × Broker → Prop
  | (some _, b) => b.Resting id
  | (none, b) => b.Asleep id

theorem Resting.idle (h : b.Resting id) : ∀ c, b.consumer? id = some c → c.wait = .idle := by
  obtain ⟨c, hc, hw, -⟩ := h
  intro c' hc'
  rw [hc] at hc'
  cases hc'
  exact hw

theorem Resting.notify (h : b.Resting id) (topic : String) (reason : WakeReason) :
    (b.notify topic reason).Resting id := by
  obtain ⟨c, hc, hidle, hw⟩ := h
  rcases b.spared_notify topic reason id with he | ⟨c', hc', hw', -⟩
  · exact ⟨c, he.trans hc, hidle, hw⟩
  · rw [hc] at hc'
    cases hc'
    simp [hw] at hw'

theorem resting_leave {c : Consumer} (h : b.consumer? id = some c) : (b.leave id).Resting id := by
  have hset : (b.setConsumer id { c with waiting := false, wait := .idle }).Resting id :=
    ⟨_, consumer?_setConsumer_self .., rfl, rfl⟩
  unfold leave
  rw [h]
  dsimp only
  split
  · exact hset
  · exact hset.notify c.topic .handoff

theorem Resting.settle (h : b.Resting id) (v : Verdict) : (b.settle id v).2.Resting id := by
  obtain ⟨c, hc, hidle, hw⟩ := h
  cases hh : c.holding with
  | false =>
    rw [settle_idle hc hh]
    exact ⟨c, hc, hidle, hw⟩
  | true =>
    rcases settle_cases hc hh v with ⟨e, f, he⟩ | ⟨s, f, hs, he⟩
    · rw [he]
      exact ⟨c, hc, hidle, hw⟩
    · rw [he]
      apply Resting.notify
      exact ⟨{ c with holding := false }, Table.look_put_self .., hidle, hw⟩

theorem Sought.rests {c : Consumer} {r : Option (Except BrokerError Bytes) × Broker}
    (h : Sought b id c c.asleep r) : Rests id r := by
  cases h with
  | cancelled => exact ⟨_, Table.look_put_self .., rfl, rfl⟩
  | failed => exact ⟨_, Table.look_put_self .., rfl, rfl⟩
  | claimed => exact ⟨_, Table.look_put_self .., rfl, rfl⟩
  | nothing => exact ⟨_, Table.look_put_self .., rfl⟩

theorem Resting.begin (h : b.Resting id) : Rests id (b.begin id) := by
  obtain ⟨c, hc, hidle, hw⟩ := h
  rcases begin_cases hc with ⟨-, he⟩ | ⟨-, hs⟩
  · rw [he]
    exact ⟨_, consumer?_setConsumer_self .., rfl, hw⟩
  · exact hs.rests

theorem rests_resume {c : Consumer} (h : b.consumer? id = some c)
    (hw : c.wait = .parked ∨ c.wait = .woken) : Rests id (b.resume id) := by
  cases hc : c.cancelled with
  | true =>
    rw [resume_cancelled h hc]
    split
    · exact resting_leave (consumer?_setConsumer_self ..)
    · exact resting_leave h
  | false =>
    rcases hw with hw | hw
    · rw [resume_asleep h hc (by simp [hw])]
      exact ⟨c, h, hw⟩
    · exact (resume_woken h hc hw).rests

theorem consumer?_release (b : Broker) (id : ConsumerId) : (b.release id).consumer? id = none := by
  have hforget : ∀ (b : Broker) (topic : String), (b.forget id topic).consumer? id = none :=
    fun b _ => Table.look_remove_self b.consumers id
  cases h : b.consumer? id with
  | none => simp [release, h]
  | some c =>
    cases hh : c.holding with
    | false => rw [release_idle h hh, hforget]
    | true => rw [release_holding h hh, hforget]

end Broker

namespace Session
open Broker

/-- What stays true whenever a session writes, or puts back what it holds. -/
structure Upheld (id : ConsumerId) (R : Broker → Broker → Prop) : Prop where
  trans : ∀ {b b' b'' : Broker}, R b b' → R b' b'' → R b b''
  note : ∀ {b : Broker} {n : Note}, n.isRecord = false → R b (b.note n)
  nack : ∀ b : Broker, R b (b.settle id .nack).2

namespace Upheld

variable {R : Broker → Broker → Prop} {id : ConsumerId}

theorem write (h : Upheld id R) (deaf : Bool) (b : Broker) (f : Frame) :
    R b (Session.write deaf b id f).2 := by
  unfold Session.write
  split <;> exact h.note rfl

theorem putBack (h : Upheld id R) (b : Broker) : R b (Session.putBack b id) := by
  have hnack := h.nack b
  unfold Session.putBack
  split
  · rename_i b' he
    rw [he] at hnack
    exact h.trans hnack (h.note rfl)
  · rename_i b' he
    rwa [he] at hnack
  · rename_i e b' _ he
    rw [he] at hnack
    exact h.trans hnack (h.note rfl)

theorem answer (h : Upheld id R) (deaf : Bool) (b : Broker) (f : Frame) :
    R b (Session.answer deaf b id f).2 := by
  have hwrite := h.write deaf b f
  unfold Session.answer
  split
  · rename_i b' he
    rwa [he] at hwrite
  · rename_i b' he
    rw [he] at hwrite
    exact h.trans hwrite (h.putBack b')

theorem conclude (h : Upheld id R) (deaf : Bool) (b : Broker) (command : Command)
    (result : Except BrokerError Bytes) : R b (Session.conclude deaf b id command result).2 := by
  cases result with
  | ok payload =>
    have hanswer := h.answer deaf b (.message payload)
    simp only [Session.conclude]
    split
    · rename_i b' he
      rw [he] at hanswer
      exact h.trans hanswer (h.note rfl)
    · rename_i b' he
      rwa [he] at hanswer
  | error e =>
    cases e with
    | cancelled => exact h.note rfl
    | store _ | nothingClaimed | alreadyHolding => exact h.trans (h.note rfl) (h.write deaf _ _)

theorem disconnect (h : Upheld id R) (b : Broker) (error : Option ReadError) :
    R b (Session.disconnect b id error) :=
  h.trans (h.note rfl) (h.putBack _)

theorem refuse (h : Upheld id R) (deaf : Bool) (b : Broker) (error : ReadError) :
    R b (Session.refuse deaf b id error) := by
  unfold Session.refuse
  split
  · exact h.disconnect b (some error)
  · exact h.trans (h.note rfl) (h.write deaf _ _)

end Upheld

/-- A stretch of a session's run in which it does not wait. -/
structure Goes (id : ConsumerId) (b b' : Broker) : Prop where
  leads : Leads id ⟨b, some id⟩ ⟨b', some id⟩
  resting : b.Resting id → b'.Resting id

variable {b b' b'' : Broker} {id : ConsumerId}

theorem Goes.trans (h : Goes id b b') (h' : Goes id b' b'') : Goes id b b'' :=
  ⟨h.leads.trans h'.leads, fun hr => h'.resting (h.resting hr)⟩

theorem goes_note {n : Note} (h : n.isRecord = false) : Goes id b (b.note n) :=
  ⟨.single (.note n h), fun hr => hr⟩

theorem goes_settle (b : Broker) (id : ConsumerId) (v : Verdict) : Goes id b (b.settle id v).2 :=
  ⟨.single (.settle v), fun hr => hr.settle v⟩

theorem upheld_goes (id : ConsumerId) : Upheld id (Goes id) where
  trans h h' := h.trans h'
  note h := goes_note h
  nack b := goes_settle b id .nack

/-- What a turn of a session leaves: a consumer asleep where the turn waits, else one at rest. -/
def LeftBy (id : ConsumerId) : Turn × Broker → Prop
  | (.wait, b) => b.Asleep id
  | (.goOn, b) | (.stop, b) => b.Resting id

theorem demand_leads (deaf : Bool) (command : Command) (h : b.Resting id) :
    Leads id ⟨b, some id⟩ ⟨(demand deaf b id command).2, some id⟩ ∧
    LeftBy id (demand deaf b id command) := by
  have hleads : Leads id ⟨b, some id⟩ ⟨(b.begin id).2, some id⟩ :=
    .single (.begin fun c hc => .inl (h.idle c hc))
  have hrests := h.begin
  unfold demand
  split
  · rename_i b' he
    rw [he] at hleads hrests
    exact ⟨hleads, hrests⟩
  · rename_i result b' he
    rw [he] at hleads hrests
    have hgoes := (upheld_goes id).conclude deaf b' command result
    split
    · rename_i b'' he'
      rw [he'] at hgoes
      exact ⟨hleads.trans hgoes.leads, hgoes.resting hrests⟩
    · rename_i b'' he'
      rw [he'] at hgoes
      exact ⟨hleads.trans hgoes.leads, hgoes.resting hrests⟩

theorem obey_settles {command : Command} {v : Verdict} {error : ClientError}
    (h : verdict? command = some (v, error)) (deaf : Bool) (b : Broker) (id : ConsumerId) :
    obey deaf b id command =
      match (b.note (.obeying command)).settle id v with
      | (.ok (), b) => demand deaf b id command
      | (.error e, b) =>
        (.stop, (write deaf (b.note (.settleFailed command e)) id (.ofError error)).2) := by
  cases command <;> cases h <;> rfl

theorem obey_leads (deaf : Bool) (command : Command) (h : b.Resting id) :
    Leads id ⟨b, some id⟩ ⟨(obey deaf b id command).2, some id⟩ ∧
    LeftBy id (obey deaf b id command) := by
  have hnote : Goes id b (b.note (.obeying command)) := goes_note rfl
  cases hv : verdict? command with
  | some verdict =>
    obtain ⟨v, error⟩ := verdict
    rw [obey_settles hv]
    have hsettle := hnote.trans (goes_settle _ id v)
    split
    · rename_i b' he
      rw [he] at hsettle
      obtain ⟨hleads, hleft⟩ := demand_leads deaf command (hsettle.resting h)
      exact ⟨hsettle.leads.trans hleads, hleft⟩
    · rename_i e b' he
      rw [he] at hsettle
      have hwrite := (hsettle.trans (goes_note rfl)).trans
        ((upheld_goes id).write deaf (b'.note (.settleFailed command e)) (.ofError error))
      exact ⟨hwrite.leads, hwrite.resting h⟩
  | none =>
    cases command with
    | init =>
      obtain ⟨hleads, hleft⟩ := demand_leads deaf .init (hnote.resting h)
      exact ⟨hnote.leads.trans hleads, hleft⟩
    | unknown text =>
      have hanswer := hnote.trans ((upheld_goes id).answer deaf _ (.ofError .unrecognisedCommand))
      simp only [obey]
      split
      · rename_i b' he
        rw [he] at hanswer
        exact ⟨hanswer.leads, hanswer.resting h⟩
      · rename_i b' he
        rw [he] at hanswer
        exact ⟨hanswer.leads, hanswer.resting h⟩
    | ack => cases hv
    | nack => cases hv

theorem close_leads (h : b.Resting id) : Leads id ⟨b, some id⟩ ⟨close b id, some id⟩ := by
  have hfinished : Goes id b (b.note (.finished id)) := goes_note rfl
  have hreleased := hfinished.leads.tail (.release (hfinished.resting h).idle)
  exact hreleased.tail (.note (.ended id) rfl)

/-- Where a run leaves a session: over, and its consumer gone, or between two runs, and its
consumer without a call or asleep in one. -/
def Leaves (id : ConsumerId) : Option Session × Broker → Prop
  | (none, b) => b.consumer? id = none
  | (some s, b) =>
    match s.position with
    | .reading => b.Resting id
    | .awaiting _ => b.Asleep id

theorem close_leaves (b : Broker) (id : ConsumerId) : Leaves id (none, close b id) :=
  consumer?_release _ id

theorem Goes.closes (h : Goes id b b') (hr : b.Resting id) :
    Leads id ⟨b, some id⟩ ⟨close b' id, some id⟩ :=
  h.leads.trans (close_leads (h.resting hr))

theorem serve_leads (s : Session) (turns : Nat) (inlet : Inlet) (h : b.Resting id) :
    Leads id ⟨b, some id⟩ ⟨(serve s id turns inlet b).2, some id⟩ ∧
    Leaves id (serve s id turns inlet b) := by
  induction turns generalizing inlet b with
  | zero => exact ⟨.refl, h⟩
  | succ turns ih =>
    simp only [serve]
    split
    · exact ⟨((upheld_goes id).disconnect b none).closes h, close_leaves _ id⟩
    · split
      · exact ⟨.refl, h⟩
      · have hleft : Goes id b (disconnect (b.note (.took id .ended)) id none) :=
          (goes_note rfl).trans ((upheld_goes id).disconnect _ none)
        exact ⟨hleft.closes h, close_leaves _ id⟩
      · rename_i e inlet' _
        have hleft : Goes id b (refuse s.deaf (b.note (.took id (.failed e))) id e) :=
          (goes_note rfl).trans ((upheld_goes id).refuse s.deaf _ e)
        exact ⟨hleft.closes h, close_leaves _ id⟩
      · rename_i c inlet' _
        have htook : Goes id b (b.note (.took id (.command c))) := goes_note rfl
        obtain ⟨hleads, hleft⟩ := obey_leads s.deaf c (htook.resting h)
        split
        · rename_i b' he
          rw [he] at hleads hleft
          obtain ⟨hserve, hleaves⟩ := ih inlet' hleft
          exact ⟨(htook.leads.trans hleads).trans hserve, hleaves⟩
        · rename_i b' he
          rw [he] at hleads hleft
          exact ⟨htook.leads.trans hleads, hleft⟩
        · rename_i b' he
          rw [he] at hleads hleft
          exact ⟨(htook.leads.trans hleads).trans (close_leads hleft), close_leaves b' id⟩

/-- A session between two runs: its consumer has no call, or one that waits or has been woken. -/
def Stands (s : Session) (b : Broker) (id : ConsumerId) : Prop :=
  match s.position with
  | .reading => b.Resting id
  | .awaiting _ => ∃ c, b.consumer? id = some c ∧ (c.wait = .parked ∨ c.wait = .woken)

theorem run_leads {s : Session} (h : s.Stands b id) :
    Leads id ⟨b, some id⟩ ⟨(s.run b id).2, some id⟩ ∧ Leaves id (s.run b id) := by
  unfold run Stands at *
  split
  · rename_i hp
    rw [hp] at h
    exact serve_leads s _ _ h
  · rename_i command hp
    rw [hp] at h
    obtain ⟨c, hc, hw⟩ := h
    have hresume : Leads id ⟨b, some id⟩ ⟨(b.resume id).2, some id⟩ := by
      refine .single (.resume ?_)
      intro c' hc'
      rw [hc] at hc'
      cases hc'
      exact hw
    have hrests := rests_resume hc hw
    split
    · rename_i b' he
      rw [he] at hresume hrests
      refine ⟨hresume, ?_⟩
      simp only [Leaves, hp]
      exact hrests
    · rename_i result b' he
      rw [he] at hresume hrests
      have hgoes := (upheld_goes id).conclude s.deaf b' command result
      split
      · rename_i b'' he'
        rw [he'] at hgoes
        obtain ⟨hserve, hleaves⟩ :=
          serve_leads s (s.inlet.unread + 1) s.inlet (hgoes.resting hrests)
        exact ⟨(hresume.trans hgoes.leads).trans hserve, hleaves⟩
      · rename_i b'' he'
        rw [he'] at hgoes
        exact ⟨hresume.trans (hgoes.closes hrests), close_leaves b'' id⟩

end Session

end TopicQueue

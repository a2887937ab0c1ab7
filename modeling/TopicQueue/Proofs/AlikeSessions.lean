import TopicQueue.Scene.Report

namespace TopicQueue

namespace Broker

/-- Calls with the same answer, after which the brokers are alike. -/
inductive Alike (R : Broker → Broker → Prop) {α : Type} : α × Broker → α × Broker → Prop where
  | mk (a : α) {b b' : Broker} (h : R b b') : Alike R (a, b) (a, b')

theorem Alike.cases {R : Broker → Broker → Prop} {α : Type} {r r' : α × Broker}
    (h : Alike R r r') : ∃ a b b', r = (a, b) ∧ r' = (a, b') ∧ R b b' := by
  obtain ⟨a, h⟩ := h
  exact ⟨a, _, _, rfl, rfl, h⟩

end Broker

namespace Session
open Broker

variable {R : Broker → Broker → Prop} {id id' : ConsumerId}

/-- Whatever the session of a consumer does keeps two brokers alike, where that consumer may go by
another number in the second. -/
structure Likeness (R : Broker → Broker → Prop) (id id' : ConsumerId) : Prop where
  note : ∀ {b b' n}, R b b' → n.output? = none → R (b.note n) (b'.note n)
  took : ∀ {b b'}, R b b' → ∀ intake, R (b.note (.took id intake)) (b'.note (.took id' intake))
  finished : ∀ {b b'}, R b b' → R (b.note (.finished id)) (b'.note (.finished id'))
  wrote : ∀ {b b'}, R b b' → ∀ frame, R (b.note (.wrote id frame)) (b'.note (.wrote id' frame))
  ended : ∀ {b b'}, R b b' → R (b.note (.ended id)) (b'.note (.ended id'))
  begin : ∀ {b b'}, R b b' → Alike R (b.begin id) (b'.begin id')
  resume : ∀ {b b'}, R b b' → Alike R (b.resume id) (b'.resume id')
  settle : ∀ {b b'}, R b b' → ∀ v, Alike R (b.settle id v) (b'.settle id' v)
  release : ∀ {b b'}, R b b' → R (b.release id) (b'.release id')
  cancelled : ∀ {b b'}, R b b' → isCancelled b' id' = isCancelled b id

namespace Likeness

variable {b b' : Broker}

theorem write (l : Likeness R id id') (h : R b b') (deaf : Bool) (f : Frame) :
    Alike R (write deaf b id f) (write deaf b' id' f) := by
  unfold Session.write
  split
  · exact .mk _ (l.note h rfl)
  · exact .mk _ (l.wrote h f)

theorem putBack (l : Likeness R id id') (h : R b b') : R (putBack b id) (putBack b' id') := by
  unfold Session.putBack
  obtain ⟨a, b₁, b₁', he, he', h⟩ := (l.settle h .nack).cases
  rw [he, he']
  cases a with
  | ok _ => exact l.note h rfl
  | error e =>
    cases e with
    | nothingClaimed => exact h
    | store | cancelled | alreadyHolding => exact l.note h rfl

theorem answer (l : Likeness R id id') (h : R b b') (deaf : Bool) (f : Frame) :
    Alike R (answer deaf b id f) (answer deaf b' id' f) := by
  unfold Session.answer
  obtain ⟨a, b₁, b₁', he, he', h⟩ := (l.write h deaf f).cases
  rw [he, he']
  cases a with
  | true => exact .mk _ h
  | false => exact .mk _ (l.putBack h)

/-- A last frame, whether it arrives or not. -/
theorem last (l : Likeness R id id') (h : R b b') (deaf : Bool) (f : Frame) :
    R (Session.write deaf b id f).2 (Session.write deaf b' id' f).2 := by
  obtain ⟨a, b₁, b₁', he, he', h⟩ := (l.write h deaf f).cases
  rwa [he, he']

theorem conclude (l : Likeness R id id') (h : R b b') (deaf : Bool) (command : Command)
    (result : Except BrokerError Bytes) :
    Alike R (conclude deaf b id command result) (conclude deaf b' id' command result) := by
  cases result with
  | ok payload =>
    unfold Session.conclude
    obtain ⟨a, b₁, b₁', he, he', h⟩ := (l.answer h deaf (.message payload)).cases
    dsimp only
    rw [he, he']
    cases a with
    | true => exact .mk _ (l.note h rfl)
    | false => exact .mk _ h
  | error e =>
    cases e with
    | cancelled => exact .mk _ (l.note h rfl)
    | store | nothingClaimed | alreadyHolding => exact .mk _ (l.last (l.note h rfl) deaf _)

theorem demand (l : Likeness R id id') (h : R b b') (deaf : Bool) (command : Command) :
    Alike R (demand deaf b id command) (demand deaf b' id' command) := by
  unfold Session.demand
  obtain ⟨a, b₁, b₁', he, he', h⟩ := (l.begin h).cases
  rw [he, he']
  cases a with
  | none => exact .mk _ h
  | some result =>
    dsimp only
    obtain ⟨a, b₂, b₂', he, he', h⟩ := (l.conclude h deaf command result).cases
    rw [he, he']
    cases a <;> exact .mk _ h

theorem obey (l : Likeness R id id') (h : R b b') (deaf : Bool) (command : Command) :
    Alike R (obey deaf b id command) (obey deaf b' id' command) := by
  have hnoted : R (b.note (.obeying command)) (b'.note (.obeying command)) := l.note h rfl
  cases command with
  | unknown text =>
    unfold Session.obey
    dsimp only
    obtain ⟨a, b₁, b₁', he, he', h⟩ :=
      (l.answer hnoted deaf (.ofError .unrecognisedCommand)).cases
    rw [he, he']
    cases a <;> exact .mk _ h
  | init => exact l.demand hnoted deaf .init
  | ack | nack =>
    unfold Session.obey
    dsimp only [verdict?]
    obtain ⟨a, b₁, b₁', he, he', h⟩ := (l.settle hnoted _).cases
    rw [he, he']
    cases a with
    | ok _ => exact l.demand h deaf _
    | error e => exact .mk _ (l.last (l.note h rfl) deaf _)

theorem disconnect (l : Likeness R id id') (h : R b b') (error : Option ReadError) :
    R (disconnect b id error) (disconnect b' id' error) :=
  l.putBack (l.note h rfl)

theorem refuse (l : Likeness R id id') (h : R b b') (deaf : Bool) (error : ReadError) :
    R (refuse deaf b id error) (refuse deaf b' id' error) := by
  unfold Session.refuse
  split
  · exact l.disconnect h _
  · exact l.last (l.note h rfl) deaf _

theorem close (l : Likeness R id id') (h : R b b') : R (close b id) (close b' id') :=
  l.ended (l.release (l.finished h))

theorem serve (l : Likeness R id id') (h : R b b') (s : Session) (turns : Nat) (inlet : Inlet) :
    Alike R (s.serve id turns inlet b) (s.serve id' turns inlet b') := by
  induction turns generalizing inlet b b' with
  | zero => exact .mk _ h
  | succ turns ih =>
    simp only [Session.serve, l.cancelled h]
    split
    · exact .mk _ (l.close (l.disconnect h none))
    · cases inlet.next with
      | mk reading inlet =>
        cases reading with
        | pending => exact .mk _ h
        | ended => exact .mk _ (l.close (l.disconnect (l.took h _) none))
        | failed e => exact .mk _ (l.close (l.refuse (l.took h _) s.deaf e))
        | command c =>
          dsimp only
          have hnoted : R (b.note (.took id (.command c))) (b'.note (.took id' (.command c))) :=
            l.took h _
          obtain ⟨turn, b₁, b₁', he, he', h⟩ := (l.obey hnoted s.deaf c).cases
          rw [he, he']
          cases turn with
          | goOn => exact ih h inlet
          | wait => exact .mk _ h
          | stop => exact .mk _ (l.close h)

/-- The session stops at the same place for the same reason, or waits for the same. -/
theorem run (l : Likeness R id id') (h : R b b') (s : Session) :
    Alike R (s.run b id) (s.run b' id') := by
  unfold Session.run
  cases s.position with
  | reading => exact l.serve h s _ _
  | awaiting command =>
    dsimp only
    obtain ⟨a, b₁, b₁', he, he', h⟩ := (l.resume h).cases
    rw [he, he']
    cases a with
    | none => exact .mk _ h
    | some result =>
      dsimp only
      obtain ⟨a, b₂, b₂', he, he', h⟩ := (l.conclude h s.deaf command result).cases
      rw [he, he']
      cases a with
      | true => exact l.serve h s _ _
      | false => exact .mk _ (l.close h)

end Likeness

end Session

end TopicQueue

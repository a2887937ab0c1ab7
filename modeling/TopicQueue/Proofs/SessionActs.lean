import TopicQueue.Proofs.SessionCalls

namespace TopicQueue

/-- Notes of a session that are for the log only. -/
def Note.isAside : Note → Bool
  | .disconnected _ | .undecodable _ | .obeying _ | .settleFailed .. | .nextFailed _
  | .waitCancelled | .wroteMessage .. | .writeFailed | .returnedInFlight | .returnFailed _
  | .finished _ => true
  | _ => false

namespace Session

/-- What a session's task is at. -/
inductive Stage where
  /-- Between two commands. -/
  | reading
  /-- It has taken this command, and has done nothing about it yet. -/
  | obeying (command : Command)
  /-- The message at hand is settled, where the command says so, and the next is to be asked for. -/
  | asking (command : Command)
  /-- The answer to this command waits for a message. -/
  | waiting (command : Command)
  /-- A frame goes out, and if it arrives the session goes on. -/
  | answering (frame : Frame)
  /-- The client is gone, and what it holds goes back. -/
  | parting
  /-- The session ends, with a last frame if there is one. -/
  | closing (last : Option Frame)
  | gone

/-- A session's task inside a run. -/
structure Point where
  stage : Stage
  inlet : Inlet
  broker : Broker

/-- What becomes of the result of a call for a message. -/
def Stage.ofResult : Except BrokerError Bytes → Stage
  | .ok payload => .answering (.message payload)
  | .error .cancelled => .closing none
  | .error _ => .closing (some (.ofError .nextValue))

/-- What becomes of an input that has failed. -/
def Stage.ofFailure : ReadError → Stage
  | .lost _ | .closed => .parting
  | .json _ | .truncated | .tooLong _ => .closing (some (.ofError .decodingCommand))

inductive Act (id : ConsumerId) (deaf : Bool) : Point → Point → Prop where
  | aside {stage inlet b} (n : Note) (h : n.isAside = true) :
      Act id deaf ⟨stage, inlet, b⟩ ⟨stage, inlet, b.note n⟩
  | cancelled {inlet b} (h : isCancelled b id = true) :
      Act id deaf ⟨.reading, inlet, b⟩ ⟨.parting, inlet, b⟩
  /-- Nothing to read yet. -/
  | pending {inlet inlet' b} (h : inlet.next = (.pending, inlet')) :
      Act id deaf ⟨.reading, inlet, b⟩ ⟨.reading, inlet', b⟩
  | ended {inlet inlet' b} (hc : isCancelled b id = false) (h : inlet.next = (.ended, inlet')) :
      Act id deaf ⟨.reading, inlet, b⟩ ⟨.parting, inlet', b.note (.took id .ended)⟩
  | failed {inlet inlet' b e} (hc : isCancelled b id = false)
      (h : inlet.next = (.failed e, inlet')) :
      Act id deaf ⟨.reading, inlet, b⟩ ⟨.ofFailure e, inlet', b.note (.took id (.failed e))⟩
  | read {inlet inlet' b c} (hc : isCancelled b id = false)
      (h : inlet.next = (.command c, inlet')) :
      Act id deaf ⟨.reading, inlet, b⟩ ⟨.obeying c, inlet', b.note (.took id (.command c))⟩
  | unknown {inlet b text} :
      Act id deaf ⟨.obeying (.unknown text), inlet, b⟩
        ⟨.answering (.ofError .unrecognisedCommand), inlet, b⟩
  | init {inlet b} : Act id deaf ⟨.obeying .init, inlet, b⟩ ⟨.asking .init, inlet, b⟩
  | settled {inlet b b' c v error} (hv : verdict? c = some (v, error))
      (h : b.settle id v = (.ok (), b')) :
      Act id deaf ⟨.obeying c, inlet, b⟩ ⟨.asking c, inlet, b'⟩
  | unsettled {inlet b b' c v error e} (hv : verdict? c = some (v, error))
      (h : b.settle id v = (.error e, b')) :
      Act id deaf ⟨.obeying c, inlet, b⟩ ⟨.closing (some (.ofError error)), inlet, b'⟩
  | begun {inlet b b' c result} (h : b.begin id = (some result, b')) :
      Act id deaf ⟨.asking c, inlet, b⟩ ⟨.ofResult result, inlet, b'⟩
  | asleep {inlet b b' c} (h : b.begin id = (none, b')) :
      Act id deaf ⟨.asking c, inlet, b⟩ ⟨.waiting c, inlet, b'⟩
  | resumed {inlet b b' c result} (h : b.resume id = (some result, b')) :
      Act id deaf ⟨.waiting c, inlet, b⟩ ⟨.ofResult result, inlet, b'⟩
  | still {inlet b b' c} (h : b.resume id = (none, b')) :
      Act id deaf ⟨.waiting c, inlet, b⟩ ⟨.waiting c, inlet, b'⟩
  | arrived {inlet b frame} (h : deaf = false) :
      Act id deaf ⟨.answering frame, inlet, b⟩ ⟨.reading, inlet, b.note (.wrote id frame)⟩
  | lost {inlet b frame} (h : deaf = true) :
      Act id deaf ⟨.answering frame, inlet, b⟩ ⟨.parting, inlet, b⟩
  | putBack {inlet b} :
      Act id deaf ⟨.parting, inlet, b⟩ ⟨.closing none, inlet, (b.settle id .nack).2⟩
  | said {inlet b frame} (h : deaf = false) :
      Act id deaf ⟨.closing (some frame), inlet, b⟩ ⟨.closing none, inlet, b.note (.wrote id frame)⟩
  | unsaid {inlet b frame} (h : deaf = true) :
      Act id deaf ⟨.closing (some frame), inlet, b⟩ ⟨.closing none, inlet, b⟩
  | closed {inlet b} :
      Act id deaf ⟨.closing none, inlet, b⟩ ⟨.gone, inlet, (b.release id).note (.ended id)⟩

abbrev Acts (id : ConsumerId) (deaf : Bool) : Point → Point → Prop :=
  Relation.ReflTransGen (Act id deaf)

def stage (s : Session) : Stage :=
  match s.position with
  | .reading => .reading
  | .awaiting command => .waiting command

/-- Where a session goes on, or not, when a frame has been written. -/
def Point.answered (inlet : Inlet) : Bool × Broker → Point
  | (true, b) => ⟨.reading, inlet, b⟩
  | (false, b) => ⟨.closing none, inlet, b⟩

def Point.turned (command : Command) (inlet : Inlet) : Turn × Broker → Point
  | (.goOn, b) => ⟨.reading, inlet, b⟩
  | (.wait, b) => ⟨.waiting command, inlet, b⟩
  | (.stop, b) => ⟨.closing none, inlet, b⟩

variable {deaf : Bool} {id : ConsumerId} {b : Broker} {stage : Stage} {inlet : Inlet}

theorem Acts.aside {p : Point} {n : Note} (h : n.isAside = true)
    (hs : Acts id deaf ⟨stage, inlet, b.note n⟩ p) : Acts id deaf ⟨stage, inlet, b⟩ p :=
  .head (.aside n h) hs

theorem putBack_acts (b : Broker) :
    Acts id deaf ⟨.parting, inlet, b⟩ ⟨.closing none, inlet, Session.putBack b id⟩ := by
  have hput : Act id deaf ⟨.parting, inlet, b⟩ _ := .putBack
  unfold Session.putBack
  split
  · rename_i b' he
    rw [he] at hput
    exact .tail (.single hput) (.aside .returnedInFlight rfl)
  · rename_i b' he
    rw [he] at hput
    exact .single hput
  · rename_i e b' _ he
    rw [he] at hput
    exact .tail (.single hput) (.aside (.returnFailed e) rfl)

theorem disconnect_acts (b : Broker) (error : Option ReadError) :
    Acts id deaf ⟨.parting, inlet, b⟩ ⟨.closing none, inlet, disconnect b id error⟩ :=
  Acts.aside rfl (putBack_acts _)

theorem answer_acts (b : Broker) (frame : Frame) :
    Acts id deaf ⟨.answering frame, inlet, b⟩ (.answered inlet (answer deaf b id frame)) := by
  cases deaf with
  | false => exact .single (.arrived rfl)
  | true => exact Acts.aside rfl (.head (.lost rfl) (putBack_acts _))

theorem last_acts (b : Broker) (frame : Frame) :
    Acts id deaf ⟨.closing (some frame), inlet, b⟩
      ⟨.closing none, inlet, (write deaf b id frame).2⟩ := by
  cases deaf with
  | false => exact .single (.said rfl)
  | true => exact Acts.aside rfl (.single (.unsaid rfl))

theorem conclude_acts (b : Broker) (command : Command) (result : Except BrokerError Bytes) :
    Acts id deaf ⟨.ofResult result, inlet, b⟩
      (.answered inlet (conclude deaf b id command result)) := by
  cases result with
  | ok payload =>
    have hanswer : Acts id deaf ⟨.answering (.message payload), inlet, b⟩ _ := answer_acts b _
    simp only [conclude]
    split
    · rename_i b' he
      rw [he] at hanswer
      exact hanswer.tail (.aside (.wroteMessage command payload.length) rfl)
    · rename_i b' he
      rwa [he] at hanswer
  | error e =>
    cases e with
    | cancelled => exact .single (.aside .waitCancelled rfl)
    | store _ | nothingClaimed | alreadyHolding => exact Acts.aside rfl (last_acts _ _)

theorem demand_acts (b : Broker) (command : Command) :
    Acts id deaf ⟨.asking command, inlet, b⟩
      (.turned command inlet (demand deaf b id command)) := by
  unfold demand
  split
  · rename_i b' he
    exact .single (.asleep he)
  · rename_i result b' he
    have hconclude : Acts id deaf ⟨.ofResult result, inlet, b'⟩ _ := conclude_acts b' command result
    split
    · rename_i b'' he'
      rw [he'] at hconclude
      exact .head (.begun he) hconclude
    · rename_i b'' he'
      rw [he'] at hconclude
      exact .head (.begun he) hconclude

theorem obey_acts (b : Broker) (command : Command) :
    Acts id deaf ⟨.obeying command, inlet, b⟩
      (.turned command inlet (obey deaf b id command)) := by
  refine Acts.aside (n := .obeying command) rfl ?_
  cases hv : verdict? command with
  | some verdict =>
    obtain ⟨v, error⟩ := verdict
    rw [obey_settles hv]
    split
    · rename_i b' he
      exact .head (.settled hv he) (demand_acts b' command)
    · rename_i e b' he
      exact .head (.unsettled hv he) (Acts.aside rfl (last_acts _ _))
  | none =>
    cases command with
    | init => exact .head .init (demand_acts _ .init)
    | unknown text =>
      have hanswer : Acts id deaf ⟨.answering (.ofError .unrecognisedCommand), inlet,
          b.note (.obeying (.unknown text))⟩ _ := answer_acts _ _
      refine .head .unknown ?_
      simp only [obey]
      split
      · rename_i b' he
        rwa [he] at hanswer
      · rename_i b' he
        rwa [he] at hanswer
    | ack => cases hv
    | nack => cases hv

theorem refuse_acts (b : Broker) (error : ReadError) :
    Acts id deaf ⟨.ofFailure error, inlet, b⟩
      ⟨.closing none, inlet, refuse deaf b id error⟩ := by
  cases error with
  | lost | closed => exact disconnect_acts b (some _)
  | json | truncated | tooLong => exact Acts.aside rfl (last_acts _ _)

theorem close_acts (b : Broker) :
    Acts id deaf ⟨.closing none, inlet, b⟩ ⟨.gone, inlet, close b id⟩ :=
  Acts.aside (n := .finished id) rfl (.single .closed)

/-- What a run of a session does: it leaves the session between two runs, or over. -/
inductive Ran (s : Session) (id : ConsumerId) (p : Point) : Option Session × Broker → Prop where
  | paused {b : Broker} (inlet : Inlet) (position : Position)
      (h : Acts id s.deaf p ⟨Session.stage { s with inlet, position }, inlet, b⟩) :
      Ran s id p (some { s with inlet, position }, b)
  | gone {b : Broker} (inlet : Inlet) (h : Acts id s.deaf p ⟨.gone, inlet, b⟩) :
      Ran s id p (none, b)

variable {s : Session} {p p' : Point} {r : Option Session × Broker}

theorem Ran.head (hs : Acts id s.deaf p p') (h : Ran s id p' r) : Ran s id p r := by
  cases h with
  | paused inlet position h => exact .paused inlet position (hs.trans h)
  | gone inlet h => exact .gone inlet (hs.trans h)

theorem ran_close (b : Broker) (inlet : Inlet) :
    Ran s id ⟨.closing none, inlet, b⟩ (none, close b id) :=
  .gone inlet (close_acts b)

theorem serve_ran (s : Session) (turns : Nat) (inlet : Inlet) (b : Broker) :
    Ran s id ⟨.reading, inlet, b⟩ (serve s id turns inlet b) := by
  induction turns generalizing inlet b with
  | zero => exact .paused inlet .reading .refl
  | succ turns ih =>
    simp only [serve]
    split
    · rename_i hc
      exact .head (.head (.cancelled hc) (disconnect_acts b none)) (ran_close _ inlet)
    · rename_i hc
      rw [Bool.not_eq_true] at hc
      split
      · rename_i inlet' he
        exact .paused inlet' .reading (.single (.pending he))
      · rename_i inlet' he
        exact .head (.head (.ended hc he) (disconnect_acts _ none)) (ran_close _ inlet')
      · rename_i e inlet' he
        exact .head (.head (.failed hc he) (refuse_acts _ e)) (ran_close _ inlet')
      · rename_i c inlet' he
        have hobey : Acts id s.deaf ⟨.obeying c, inlet', b.note (.took id (.command c))⟩ _ :=
          obey_acts _ c
        refine .head (.single (.read hc he)) ?_
        split
        · rename_i b' he
          rw [he] at hobey
          exact .head hobey (ih inlet' b')
        · rename_i b' he
          rw [he] at hobey
          exact .paused inlet' (.awaiting c) hobey
        · rename_i b' he
          rw [he] at hobey
          exact .head hobey (ran_close b' inlet')

theorem run_ran (s : Session) (b : Broker) (id : ConsumerId) :
    Ran s id ⟨s.stage, s.inlet, b⟩ (s.run b id) := by
  cases hp : s.position with
  | reading =>
    simp only [run, stage, hp]
    exact serve_ran s _ s.inlet b
  | awaiting command =>
    have hpaused : s = { s with inlet := s.inlet, position := .awaiting command } := by rw [← hp]
    simp only [run, stage, hp]
    split
    · rename_i b' he
      rw [hpaused]
      exact .paused s.inlet (.awaiting command) (.single (.still he))
    · rename_i result b' he
      have hconclude : Acts id s.deaf ⟨.ofResult result, s.inlet, b'⟩ _ :=
        conclude_acts b' command result
      refine .head (.single (.resumed he)) ?_
      split
      · rename_i b'' he'
        rw [he'] at hconclude
        exact .head hconclude (serve_ran s _ s.inlet b'')
      · rename_i b'' he'
        rw [he'] at hconclude
        exact .head hconclude (ran_close b'' s.inlet)

end Session

end TopicQueue

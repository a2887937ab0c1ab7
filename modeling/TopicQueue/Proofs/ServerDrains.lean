import TopicQueue.Proofs.ServerMoves

namespace TopicQueue

section

variable {κ α : Type} [DecidableEq κ]

theorem tally_mono {f g : α → Nat} (h : ∀ a, f a ≤ g a) (l : List α) : tally f l ≤ tally g l := by
  induction l with
  | nil => exact Nat.le_refl _
  | cons a l ih =>
    rw [tally_cons, tally_cons]
    exact Nat.add_le_add (h a) ih

/-- A value comes in, in the place of another one or not. -/
theorem tally_put_le (f : κ × α → Nat) (t : Table κ α) (k : κ) (v : α) :
    tally f (t.put k v) ≤ tally f t + f (k, v) := by
  induction t with
  | nil => simp [Table.put]
  | cons p t ih =>
    obtain ⟨k', w⟩ := p
    simp only [Table.put]
    split <;> simp only [tally_cons] <;> omega

end

namespace Broker

variable {m m' : ConsumerId → Bool} {b : Broker} {id : ConsumerId}

theorem due_publish (b : Broker) (topic : String) (payload : Bytes) :
    (b.publish topic payload).2.due m ≤ b.due m + 1 := by
  rcases b.publish_cases topic payload with ⟨e, f, he⟩ | ⟨s, f, -, he⟩
  · rw [he]
    exact Nat.le_succ _
  · rw [he]
    exact due_notify _ topic .publish

theorem due_subscribe (b : Broker) (topic : String) : (b.subscribe topic).2.due m ≤ b.due m :=
  Nat.add_le_add_left (tally_put_le (fun p => owed m p.1 p.2) b.consumers b.nextId { topic }) _

theorem due_mono (h : ∀ id, m id = true → m' id = true) (b : Broker) : b.due m ≤ b.due m' := by
  refine Nat.add_le_add_left (tally_mono (fun p => ?_) _) _
  by_cases howed : p.2.wait ≠ .idle ∧ m p.1 = true
  · have hboth : owed m p.1 p.2 = 2 ∧ owed m' p.1 p.2 = 2 :=
      ⟨if_pos howed, if_pos ⟨howed.1, h _ howed.2⟩⟩
    omega
  · have hnone : owed m p.1 p.2 = 0 := if_neg howed
    omega

theorem due_cancel (b : Broker) (id : ConsumerId) :
    ((b.cancel id).enqueue id).due m ≤ b.due m + 1 := by
  unfold cancel
  split
  · exact due_enqueue b id
  · rename_i c hc
    have hset := due_setConsumer (m := m) hc { c with cancelled := true }
    have hsame : owed m id { c with cancelled := true } = owed m id c := rfl
    have hqueue := due_enqueue (m := m) (b.setConsumer id { c with cancelled := true }) id
    dsimp only
    split
    · have htwice : ∀ b : Broker, (b.enqueue id).enqueue id = b.enqueue id := fun b =>
        if_pos (mem_enqueue b id)
      rw [htwice]
      omega
    · omega

theorem due_le_enqueue (b : Broker) (id : ConsumerId) : b.due m ≤ (b.enqueue id).due m := by
  unfold enqueue
  split
  · exact Nat.le_refl _
  · simp only [due, List.length_append]
    omega

end Broker

namespace Service
open Broker

/-- One broker in the place of another. -/
theorem weight_broker (s : Service) (b : Broker) {n : Nat}
    (h : ∀ m, b.due m ≤ s.broker.due m + n) :
    ({ s with broker := b } : Service).weight ≤ s.weight + n := by
  have hdue := h (plain s.sessions)
  simp only [weight_eq]
  omega

theorem weight_openSession (s : Service) (topic : String) (inlet : Inlet)
    (span : Option RequestSpan) :
    (s.openSession topic inlet span).2.weight ≤ s.weight + inlet.unread + 3 := by
  have hsubscribe := due_subscribe (m := plain s.sessions) s.broker topic
  have henqueue := due_enqueue (m := plain s.sessions) (s.broker.subscribe topic).2 s.broker.nextId
  -- Who serves the new session is no plain consumer any more.
  have hfewer : ∀ id, plain (s.sessions.put s.broker.nextId { inlet, span }) id = true →
      plain s.sessions id = true := by
    intro id hid
    unfold plain at hid ⊢
    rw [Table.look_put] at hid
    split at hid
    · cases hid
    · exact hid
  have hplain := due_mono hfewer ((s.broker.subscribe topic).2.enqueue s.broker.nextId)
  have hsessions := tally_put_le (fun p => p.2.inlet.unread + 2) s.sessions s.broker.nextId
    { inlet, span }
  have hopened : (s.openSession topic inlet span).2 =
      ⟨(s.broker.subscribe topic).2.enqueue s.broker.nextId,
        s.sessions.put s.broker.nextId { inlet, span }⟩ := rfl
  rw [hopened, weight_eq, weight_eq]
  dsimp only at hsessions ⊢
  omega

theorem weight_cancelSession (s : Service) (id : ConsumerId) :
    (s.cancelSession id).weight ≤ s.weight + 1 := by
  unfold cancelSession
  split
  · exact Nat.le_succ _
  · dsimp only
    refine s.weight_broker _ fun m => ?_
    have hcancel := due_cancel (m := m) s.broker id
    have hle := due_le_enqueue (m := m) (s.broker.cancel id) id
    split
    · exact hcancel
    · omega

end Service

namespace Http.Server
open Broker

variable {s : Server} {name : String} {r : Request}

/-- What a request may still put on the queue. -/
def burden (p : String × Request) : Nat :=
  match p.2.stage with
  | .arrived | .collecting _ => (Inlet.chunks [] p.2.body false).unread + 4
  | .streaming _ | .done => 0

theorem weight_eq (s : Server) : s.weight = s.service.weight + tally burden s.requests := rfl

theorem weight_setBroker (s : Server) (b : Broker) {n : Nat}
    (h : ∀ m, b.due m ≤ s.broker.due m + n) : (s.setBroker b).weight ≤ s.weight + n := by
  have hservice : (s.setBroker b).service.weight ≤ s.service.weight + n :=
    s.service.weight_broker b h
  have hrequests : (s.setBroker b).requests = s.requests := rfl
  rw [weight_eq, weight_eq, hrequests]
  omega

theorem weight_note (s : Server) (n : Note) : (s.note n).weight = s.weight := rfl

theorem weight_setSpan (s : Server) (span : Option RequestSpan) :
    (s.setSpan span).weight = s.weight := rfl

theorem weight_put (h : s.requests.look name = some r) (r' : Request) :
    ({ s with requests := s.requests.put name r' } : Server).weight + burden (name, r) =
      s.weight + burden (name, r') := by
  have hput := tally_put (f := burden) h r'
  rw [weight_eq, weight_eq]
  dsimp only at hput ⊢
  omega

/-- Whoever is answered owes nothing more. -/
theorem weight_answer (h : s.requests.look name = some r) (response : Response) :
    (s.answer name r response).weight + burden (name, r) = s.weight :=
  weight_put (s := s.note (.answered r.task response)) h { r with stage := .done }

theorem weight_publish (h : s.requests.look name = some r) (topic : String)
    (hburden : 0 < burden (name, r))
    (hstage : burden (name, { r with stage := .collecting topic }) = burden (name, r)) :
    (s.publish name r topic).weight ≤ s.weight := by
  unfold publish
  split
  · rename_i reason _
    have hanswer := weight_answer (s := s.note (.bodyUnreadable reason)) h (.internal .readBody)
    rw [weight_note] at hanswer
    omega
  · rename_i payload _
    split
    · have hput := weight_put h { r with stage := .collecting topic }
      rw [hstage] at hput
      omega
    · have hpublish := s.weight_setBroker (s.broker.publish topic payload).2
        fun m => s.broker.due_publish topic payload
      split
      · rename_i e b he
        simp only [he] at hpublish
        have hanswer := weight_answer (s := (s.setBroker b).note (.publishFailed e)) h
          (.internal .publish)
        rw [weight_note] at hanswer
        omega
      · rename_i b he
        simp only [he] at hpublish
        have hanswer := weight_answer (s := (s.setBroker b).note (.published payload.length)) h
          { status := 201 }
        rw [weight_note] at hanswer
        omega

theorem weight_subscribe (h : s.requests.look name = some r) (topic : String) (span : RequestSpan)
    (hburden : burden (name, r) = (Inlet.chunks [] r.body false).unread + 4) :
    (s.subscribe name r topic span).weight ≤ s.weight := by
  unfold subscribe
  have hopened := s.service.weight_openSession topic (.chunks [] r.body !r.bodyOpen) (some span)
  generalize s.service.openSession topic (.chunks [] r.body !r.bodyOpen) (some span) = opened
    at hopened
  obtain ⟨id, service⟩ := opened
  have hcancelled : (if s.stopped then service.cancelSession id else service).weight ≤
      service.weight + 1 := by
    split
    · exact service.weight_cancelSession id
    · exact Nat.le_succ _
  dsimp only at hopened ⊢
  generalize (if s.stopped then service.cancelSession id else service) = service' at hcancelled
  have hput := weight_put h { r with stage := .streaming id, body := [] }
  have hnone : burden (name, { r with stage := .streaming id, body := [] }) = 0 := rfl
  change service'.weight + tally burden _ ≤ s.service.weight + tally burden _
  change s.service.weight + tally burden _ + _ = s.service.weight + tally burden _ + _ at hput
  change _ ≤ _ + (Inlet.chunks [] r.body false).unread + 3 at hopened
  dsimp only at hput ⊢
  omega

theorem weight_handle (h : s.requests.look name = some r) (hstage : r.stage = .arrived) :
    (s.handle name r).weight ≤ s.weight := by
  have hburden : burden (name, r) = (Inlet.chunks [] r.body false).unread + 4 := by
    simp only [burden, hstage]
  unfold handle
  split
  · have hanswer := weight_answer h { status := 404 }
    omega
  · have hanswer := weight_answer h { status := 405, allow := some Route.method }
    omega
  · rename_i handler _
    have hanswer := weight_answer
      (s := ((s.setSpan (some ⟨handler.text, none⟩)).note .invalidTopic).setSpan none) h
      (.badRequest .invalidTopic)
    rw [weight_setSpan, weight_note, weight_setSpan] at hanswer
    dsimp only
    omega
  · rename_i topic _
    have hpublish := weight_publish
      (s := (s.setSpan (some ⟨Handler.publish.text, some topic⟩)).note .publishing) h topic
      (by omega) hburden.symm
    rwa [weight_note, weight_setSpan] at hpublish
  · rename_i topic _
    exact weight_subscribe
      (s := ((s.setSpan (some ⟨Handler.subscribe.text, some topic⟩)).note .subscribing).setSpan none)
      h topic _ hburden

theorem weight_runRequest (h : s.requests.look name = some r) :
    (s.runRequest name r).weight ≤ s.weight := by
  unfold runRequest
  split
  · rename_i hstage
    exact weight_handle h hstage
  · rename_i topic hstage
    have hburden : burden (name, r) = (Inlet.chunks [] r.body false).unread + 4 := by
      simp only [burden, hstage]
    exact weight_publish (s := s.setSpan (some ⟨Handler.publish.text, some topic⟩)) h topic
      (by omega) hburden.symm
  · exact Nat.le_refl _
  · exact Nat.le_refl _

/-- A task that runs adds nothing to what is left to do. -/
theorem Orderly.weight_run (hs : s.Orderly) (task : Nat) : (s.run task).weight ≤ s.weight := by
  unfold Server.run
  split
  · rename_i name r hf
    exact weight_runRequest (hs.found hf).1
  · exact Nat.add_le_add_right (s.service.weight_run task) _

theorem runMany_idle (h : s.broker.ready = []) (turns : Nat) : runMany turns s = s := by
  have hnone : s.service.dequeue = none := Service.dequeue_none h
  cases turns with
  | zero => rfl
  | succ turns => simp only [runMany, hnone]

theorem runMany_succ (turns : Nat) (s : Server) : runMany (turns + 1) s = runMany turns s.turn := by
  cases hd : s.service.dequeue with
  | none =>
    have hready : s.broker.ready = [] := Service.dequeue_eq_none.mp hd
    rw [turn_nil hready, runMany_idle hready, runMany_idle hready]
  | some taken => simp only [runMany, turn, hd]

/-- Running tasks is nothing but taking turns. -/
theorem runMany_moves (turns : Nat) (s : Server) :
    runMany turns s = s.moves (List.replicate turns .turn) := by
  induction turns generalizing s with
  | zero => rfl
  | succ turns ih =>
    rw [runMany_succ, ih]
    rfl

theorem drain_moves (s : Server) : s.drain = s.moves (List.replicate s.weight .turn) :=
  runMany_moves s.weight s

/-- A turn takes one task off the queue and pays for those that it puts there. -/
theorem Orderly.weight_turn (hs : s.Orderly) {task : Nat} (h : s.broker.ready.head? = some task) :
    s.turn.weight + 1 ≤ s.weight := by
  have htaken : s.taken.weight + 1 = s.weight := by
    have hservice := Service.weight_dequeue (dequeue_head h)
    have hrequests : s.taken.requests = s.requests := rfl
    rw [weight_eq, weight_eq, hrequests]
    omega
  have hrun := (hs.take h).orderly.weight_run task
  rw [turn_head h]
  omega

/-- Enough turns empty the queue. -/
theorem Orderly.runMany_done (hs : s.Orderly) {turns : Nat} (h : s.weight ≤ turns) :
    (runMany turns s).broker.ready = [] := by
  induction turns generalizing s with
  | zero =>
    have hnone : s.service.broker.ready.length = 0 := by
      simp only [weight_eq, Service.weight] at h
      omega
    exact List.length_eq_zero_iff.mp hnone
  | succ turns ih =>
    cases hhead : s.broker.ready.head? with
    | none => rwa [runMany_idle (List.head?_eq_none_iff.mp hhead), ← List.head?_eq_none_iff]
    | some task =>
      have hturn := hs.weight_turn hhead
      rw [runMany_succ]
      exact ih hs.turn.orderly (by omega)

/-- After a drain nothing is left to run. -/
theorem Orderly.drain_done (hs : s.Orderly) : s.drain.broker.ready = [] :=
  hs.runMany_done (Nat.le_refl _)

end Http.Server

end TopicQueue

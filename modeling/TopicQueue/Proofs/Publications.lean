import Mathlib.Data.List.Induction
import TopicQueue.Proofs.ServerDrains

namespace TopicQueue.Http

/-- Chunks that make up a payload which is not too long. -/
def Makes (limit : Nat) (chunks : List Chunk) (payload : Bytes) : Prop :=
  ∃ pieces : List Bytes,
    chunks = pieces.map .data ∧ payload = pieces.flatten ∧ payload.length ≤ limit

/-- Chunks one of which is a failure, or that are too long together. -/
def Broken (limit : Nat) (chunks : List Chunk) : Prop :=
  (∃ reason, .lost reason ∈ chunks) ∨ limit < tally Chunk.size chunks

section

variable {limit : Nat} {chunks : List Chunk} {payload : Bytes}

theorem tally_data (pieces : List Bytes) :
    tally Chunk.size (pieces.map .data) = pieces.flatten.length := by
  induction pieces with
  | nil => rfl
  | cons piece pieces ih => simp [Chunk.size, ih]

theorem Makes.not_broken (h : Makes limit chunks payload) : ¬ Broken limit chunks := by
  obtain ⟨pieces, rfl, rfl, hle⟩ := h
  rintro (⟨reason, hlost⟩ | hlong)
  · obtain ⟨piece, -, he⟩ := List.mem_map.mp hlost
    cases he
  · rw [tally_data] at hlong
    omega

/-- Once broken, a body stays so whatever comes behind. -/
theorem Broken.append (h : Broken limit chunks) (more : List Chunk) :
    Broken limit (chunks ++ more) := by
  rcases h with ⟨reason, hlost⟩ | hlong
  · exact .inl ⟨reason, List.mem_append_left more hlost⟩
  · refine .inr ?_
    rw [tally_append]
    omega

namespace Server

/-- What has been gathered before counts towards the limit. -/
theorem gather_spec (got : Bytes) (hgot : got.length ≤ limit) (chunks : List Chunk) :
    (∃ reason, gather limit got chunks = .error reason ∧
      ((∃ reason, .lost reason ∈ chunks) ∨ limit < got.length + tally Chunk.size chunks)) ∨
    ∃ pieces : List Bytes, chunks = pieces.map .data ∧ (got ++ pieces.flatten).length ≤ limit ∧
      gather limit got chunks = .ok (got ++ pieces.flatten) := by
  induction chunks generalizing got with
  | nil => exact .inr ⟨[], rfl, by simpa using hgot, by simp [gather]⟩
  | cons chunk chunks ih =>
    cases chunk with
    | lost reason => exact .inl ⟨reason, rfl, .inl ⟨reason, List.mem_cons_self⟩⟩
    | data octets =>
      by_cases hlong : limit < got.length + octets.length
      · refine .inl ⟨tooLong, by simp [gather, hlong], .inr ?_⟩
        simp only [tally_cons, Chunk.size]
        omega
      · have hle : (got ++ octets).length ≤ limit := by
          rw [List.length_append]
          omega
        have hstep : gather limit got (.data octets :: chunks) =
            gather limit (got ++ octets) chunks := by simp [gather, hlong]
        rw [hstep]
        rcases ih (got ++ octets) hle with ⟨reason, he, hbroken⟩ | ⟨pieces, rfl, hshort, he⟩
        · refine .inl ⟨reason, he, ?_⟩
          rcases hbroken with ⟨reason, hlost⟩ | hlong'
          · exact .inl ⟨reason, List.mem_cons_of_mem _ hlost⟩
          · refine .inr ?_
            simp only [tally_cons, Chunk.size, List.length_append] at hlong' ⊢
            omega
        · exact .inr ⟨octets :: pieces, rfl, by simpa using hshort, by simpa using he⟩

/-- A body is gathered whole or not at all. -/
theorem gather_cases (limit : Nat) (chunks : List Chunk) :
    (∃ reason, gather limit [] chunks = .error reason ∧ Broken limit chunks) ∨
    ∃ payload, gather limit [] chunks = .ok payload ∧ Makes limit chunks payload := by
  rcases gather_spec [] (Nat.zero_le limit) chunks with
    ⟨reason, he, hbroken⟩ | ⟨pieces, hp, hle, he⟩
  · exact .inl ⟨reason, he, by simpa [Broken] using hbroken⟩
  · exact .inr ⟨_, he, pieces, hp, rfl, hle⟩

end Server

end

/-- The part of a path behind the name of the handler ends in a segment that stands for the
topic. -/
def Names (rest : Bytes) (topic : String) : Prop :=
  ∃ segment, rest = slash :: segment ∧ percentDecode segment = Bytes.ofText topic ∧ topic ≠ ""

namespace Route

theorem topic?_eq_some {segment : Bytes} {topic : String} :
    topic? segment = some topic ↔ percentDecode segment = Bytes.ofText topic ∧ topic ≠ "" := by
  unfold topic?
  constructor
  · intro h
    split at h
    · rename_i t ht
      split at h
      · cases h
      · rename_i hne
        cases h
        exact ⟨Bytes.text?_eq_some ht, hne⟩
    · cases h
  · rintro ⟨hp, hne⟩
    simp [hp, Bytes.text?_ofText, hne]

/-- The path `/publish`, alone, with a slash or with one segment, is that of the handler. -/
theorem of_publish {target : String} {rest : Bytes}
    (hpath : Target.path? target = some (Bytes.ofText "/publish" ++ rest))
    (hrest : rest = [] ∨ ∃ segment, rest = slash :: segment ∧ slash ∉ segment) :
    ∃ topic?, of? "POST" target = some (.handle .publish topic?) ∧
      ∀ topic, topic? = some topic ↔ Names rest topic := by
  have hmethod : isMethod "POST" = true := by decide
  have hprefix : (Bytes.ofText "/publish").isPrefixOf (Bytes.ofText "/publish" ++ rest) = true := by
    rw [List.isPrefixOf_iff_prefix]
    exact List.prefix_append _ _
  have hunder : ∃ topic?, under? (Bytes.ofText "/publish" ++ rest) (Bytes.ofText "/publish") =
      some topic? ∧ ∀ topic, topic? = some topic ↔ Names rest topic := by
    simp only [under?, hprefix, if_true, List.drop_left]
    rcases hrest with rfl | ⟨segment, rfl, hslash⟩
    · exact ⟨none, rfl, by simp [Names]⟩
    · refine ⟨topic? segment, by simp [hslash], fun topic => ?_⟩
      simp [topic?_eq_some, Names]
  obtain ⟨topic?, hunder, hnames⟩ := hunder
  refine ⟨topic?, ?_, hnames⟩
  simp [of?, hmethod, hpath, ofPath, hunder, method]

end Route

/-- The client sends more of the body, or says that there is no more. -/
def Move.feeds (name : String) : Move → Bool
  | .act (.send other _) | .act (.fail other) | .act (.close other) => other = name
  | _ => false

/-- The client gives its request up. -/
def Move.renounces (name : String) : Move → Bool
  | .act (.request other ..) | .act (.drop other) => other = name
  | _ => false

/-- What has come of a request's body so far, and whether more may come. -/
structure Upload where
  chunks : List Chunk
  isOpen : Bool

/-- The body that has come with a request. -/
def Request.upload (r : Request) : Upload := ⟨r.body, r.bodyOpen⟩

namespace Upload

/-- What comes of a body with a move, if it is that of the client. -/
def after (name : String) (u : Upload) : Move → Upload
  | .act (.send other octets) =>
    if other = name ∧ u.isOpen then { u with chunks := u.chunks ++ [.data octets] } else u
  | .act (.fail other) =>
    if other = name ∧ u.isOpen then
      { u with chunks := u.chunks ++ [.lost Scene.transportReason] } else u
  | .act (.close other) => if other = name then { u with isOpen := false } else u
  | _ => u

def afterAll (name : String) (u : Upload) (ms : List Move) : Upload := ms.foldl (after name) u

/-- The body is at its end, and all of it has come. -/
def Delivers (u : Upload) (limit : Nat) (payload : Bytes) : Prop :=
  u.isOpen = false ∧ Makes limit u.chunks payload

variable {u : Upload} {limit : Nat} {payload : Bytes}

/-- More may come to an open body only. -/
theorem after_cases (name : String) (u : Upload) (m : Move) :
    (∃ more, (u.after name m).chunks = u.chunks ++ more) ∧
      (u.isOpen = false → u.after name m = u) := by
  have hsame : ∃ more, u.chunks = u.chunks ++ more := ⟨[], (List.append_nil _).symm⟩
  unfold after
  split
  case h_1 | h_2 =>
    split
    · rename_i h
      exact ⟨⟨_, rfl⟩, fun hopen => by simp [hopen] at h⟩
    · exact ⟨hsame, fun _ => rfl⟩
  case h_3 =>
    split
    · refine ⟨hsame, fun hopen => ?_⟩
      rw [← hopen]
    · exact ⟨hsame, fun _ => rfl⟩
  case h_4 => exact ⟨hsame, fun _ => rfl⟩

theorem broken_after (h : Broken limit u.chunks) (name : String) (m : Move) :
    Broken limit (u.after name m).chunks := by
  obtain ⟨more, he⟩ := (u.after_cases name m).1
  rw [he]
  exact h.append more

theorem Delivers.after (h : u.Delivers limit payload) (name : String) (m : Move) :
    (u.after name m).Delivers limit payload := by
  rwa [(u.after_cases name m).2 h.1]

end Upload

namespace Server
open Broker

/-- The store takes what is to be inserted. -/
def Inserts (b : Broker) : Prop := b.store.closed = false ∧ (b.faults.trip .insert).1 = none

/-- Store and claims, the registry with its consumers and the sessions are what they were. -/
structure Quiet (s s' : Server) : Prop where
  store : s'.broker.store = s.broker.store
  consumers : s'.broker.consumers = s.broker.consumers
  topics : s'.broker.topics = s.broker.topics
  sessions : s'.service.sessions = s.service.sessions

/-- Nobody has been woken either. -/
structure Still (s s' : Server) : Prop extends Quiet s s' where
  ready : s'.broker.ready = s.broker.ready

/-- One payload more, at the end of its topic. -/
structure Appended (topic : String) (payload : Bytes) (s s' : Server) : Prop where
  queue : s'.broker.store.queue = Function.update s.broker.store.queue topic
    { s.broker.store.queue topic with
      entries := (s.broker.store.queue topic).entries ++ [.ok payload] }
  claims : s'.broker.store.claims = s.broker.store.claims

/-- The answer to a request to publish, as it is written, and what has come of it. -/
inductive Outcome (limit : Nat) (rest : Bytes) (u : Upload) (s s' : Server) : Response → Prop where
  | invalid (ht : ∀ topic, ¬ Names rest topic) (hs : Still s s') :
      Outcome limit rest u s s' {
        status := 400
        contentType := some "application/json"
        body := "\x7b\"error\":\"invalid topic value\"\x7d" }
  | unreadable {topic} (ht : Names rest topic) (hb : Broken limit u.chunks) (hs : Still s s') :
      Outcome limit rest u s s' {
        status := 500
        contentType := some "application/json"
        body := "\x7b\"error\":\"error reading the request body\"\x7d" }
  | refused {topic payload} (ht : Names rest topic) (hp : u.Delivers limit payload)
      (hi : ¬ Inserts s.broker) (hs : Still s s') :
      Outcome limit rest u s s' {
        status := 500
        contentType := some "application/json"
        body := "\x7b\"error\":\"error publishing to broker\"\x7d" }
  | created {topic payload} (ht : Names rest topic) (hp : u.Delivers limit payload)
      (hi : Inserts s.broker) (hs : Appended topic payload s s') :
      Outcome limit rest u s s' { status := 201 }

variable {s s' : Server} {name : String} {rest : Bytes} {u : Upload} {response : Response}
  {limit task : Nat} {m : Move}

/-- Success is answered just where all conditions for it hold. -/
theorem Outcome.created_iff (h : Outcome limit rest u s s' response) :
    response.status = 201 ↔ (∃ topic, Names rest topic) ∧ (∃ payload, u.Delivers limit payload) ∧
      Inserts s.broker := by
  cases h with
  | invalid ht hs =>
    refine ⟨fun h => absurd h (by decide), ?_⟩
    rintro ⟨⟨topic, hn⟩, -⟩
    exact absurd hn (ht topic)
  | unreadable ht hb hs =>
    refine ⟨fun h => absurd h (by decide), ?_⟩
    rintro ⟨-, ⟨payload, hp⟩, -⟩
    exact absurd hb hp.2.not_broken
  | refused ht hp hi hs =>
    refine ⟨fun h => absurd h (by decide), ?_⟩
    rintro ⟨-, -, hi'⟩
    exact absurd hi' hi
  | created ht hp hi hs => exact ⟨fun _ => ⟨⟨_, ht⟩, ⟨_, hp⟩, hi⟩, fun _ => rfl⟩

/-- What comes of the body after the answer makes no difference to it. -/
theorem Outcome.after (h : Outcome limit rest u s s' response) (name : String) (m : Move) :
    Outcome limit rest (u.after name m) s s' response := by
  cases h with
  | invalid ht hs => exact .invalid ht hs
  | unreadable ht hb hs => exact .unreadable ht (Upload.broken_after hb name m) hs
  | refused ht hp hi hs => exact .refused ht (hp.after name m) hi hs
  | created ht hp hi hs => exact .created ht (hp.after name m) hi hs

/-- Two states of a server that differ in notes and in the request at work only. -/
structure Frame (s s' : Server) : Prop where
  still : Still s s'
  faults : s'.broker.faults = s.broker.faults
  requests : s'.requests = s.requests
  replies : s'.broker.replies = s.broker.replies

theorem frame_setSpan (s : Server) (span : Option RequestSpan) : Frame s (s.setSpan span) :=
  ⟨⟨⟨rfl, rfl, rfl, rfl⟩, rfl⟩, rfl, rfl, rfl⟩

theorem frame_note (s : Server) {n : Note} (h : n.reply? = none) : Frame s (s.note n) :=
  ⟨⟨⟨rfl, rfl, rfl, rfl⟩, rfl⟩, rfl, rfl, replies_note h⟩

theorem Still.trans {s'' : Server} (h : Still s s') (h' : Still s' s'') : Still s s'' :=
  ⟨⟨h'.store.trans h.store, h'.consumers.trans h.consumers, h'.topics.trans h.topics,
    h'.sessions.trans h.sessions⟩, h'.ready.trans h.ready⟩

theorem Frame.trans {s'' : Server} (h : Frame s s') (h' : Frame s' s'') : Frame s s'' :=
  ⟨h.still.trans h'.still, h'.faults.trans h.faults, h'.requests.trans h.requests,
    h'.replies.trans h.replies⟩

theorem Outcome.framed {t t' : Server} (h : Outcome limit rest u t t' response) (hs : Frame s t)
    (hs' : Frame t' s') : Outcome limit rest u s s' response := by
  have hinserts : Inserts t.broker ↔ Inserts s.broker := by
    simp only [Inserts, hs.still.store, hs.faults]
  cases h with
  | invalid ht h => exact .invalid ht ((hs.still.trans h).trans hs'.still)
  | unreadable ht hb h => exact .unreadable ht hb ((hs.still.trans h).trans hs'.still)
  | refused ht hp hi h =>
    exact .refused ht hp (mt hinserts.mpr hi) ((hs.still.trans h).trans hs'.still)
  | created ht hp hi h =>
    refine .created ht hp (hinserts.mp hi) ⟨?_, ?_⟩
    · rw [hs'.still.store, h.queue, hs.still.store]
    · rw [hs'.still.store, h.claims, hs.still.store]

/-- What comes of running the task of a request to publish: it waits for more of its body, or it is
answered. -/
inductive Attempt (limit : Nat) (rest : Bytes) (name : String) (r : Request) (s s' : Server) :
    Prop where
  | waits {topic} (ht : Names rest topic) (hopen : r.bodyOpen = true)
      (hwhole : ¬ Broken limit r.body) (hs : Still s s')
      (hrequests : s'.requests = s.requests.put name { r with stage := .collecting topic })
      (hreplies : s'.broker.replies = s.broker.replies)
  | settles {answer : Response} (ho : Outcome limit rest r.upload s s' answer)
      (hrequests : s'.requests = s.requests.put name { r with stage := .done })
      (hreplies : s'.broker.replies = (r.task, answer) :: s.broker.replies)

/-- An answer that tells of an error, as it is written. -/
theorem ofError_written (status : Nat) (e : ClientError) : Response.ofError status e = {
    status
    contentType := some "application/json"
    body := "\x7b\"error\":\"" ++ e.message ++ "\"\x7d" } := by
  rw [Response.ofError, e.render_body]
  rfl

variable {r : Request} {topic : String} {payload : Bytes}

theorem Attempt.framed {t t' : Server} (h : Attempt limit rest name r t t') (hs : Frame s t)
    (hs' : Frame t' s') : Attempt limit rest name r s s' := by
  cases h with
  | waits ht hopen hwhole h hrequests hreplies =>
    refine .waits ht hopen hwhole ((hs.still.trans h).trans hs'.still) ?_ ?_
    · rw [hs'.requests, hrequests, hs.requests]
    · rw [hs'.replies, hreplies, hs.replies]
  | settles ho hrequests hreplies =>
    refine .settles (ho.framed hs hs') ?_ ?_
    · rw [hs'.requests, hrequests, hs.requests]
    · rw [hs'.replies, hreplies, hs.replies]

theorem attempt_answer {t : Server} {answer : Response} (written : answer = response)
    (hrequests : t.requests = s.requests) (hreplies : t.broker.replies = s.broker.replies)
    (ho : Outcome limit rest r.upload s (t.answer name r answer) response) :
    Attempt limit rest name r s (t.answer name r answer) := by
  subst written
  refine .settles ho (hrequests ▸ rfl) ?_
  rw [← hreplies]
  exact replies_answered t.broker r.task answer

/-- Whether a broker publishes is up to its store alone. -/
theorem publish_ok_iff (b : Broker) (topic : String) (payload : Bytes) :
    (b.publish topic payload).1 = .ok () ↔ Inserts b := by
  unfold Broker.publish Broker.call Inserts
  cases ht : b.faults.trip .insert with
  | mk fault faults =>
    cases fault with
    | some kind => simp
    | none => cases hc : b.store.closed <;> simp [Store.insert, hc, Except.map]

theorem attempt_publish (hd : s.broker.ledger.Durable) (ht : Names rest topic) :
    Attempt s.maxPayload rest name r s (s.publish name r topic) := by
  unfold publish
  rcases gather_cases s.maxPayload r.body with ⟨reason, hg, hbroken⟩ | ⟨payload, hg, hmakes⟩
  · rw [hg]
    exact attempt_answer (ofError_written 500 .readBody) rfl (replies_note rfl)
      (.unreadable ht hbroken ⟨⟨rfl, rfl, rfl, rfl⟩, rfl⟩)
  · rw [hg]
    dsimp only
    split
    · rename_i hopen
      exact .waits ht hopen hmakes.not_broken ⟨⟨rfl, rfl, rfl, rfl⟩, rfl⟩ rfl rfl
    · rename_i hopen
      have hdelivers : r.upload.Delivers s.maxPayload payload :=
        ⟨by simpa [Request.upload] using hopen, hmakes⟩
      have hiff := publish_ok_iff s.broker topic payload
      have hreplies := replies_publish s.broker topic payload
      rcases s.broker.publish_cases topic payload with ⟨e, f, he⟩ | ⟨store, f, hi, he⟩
      · rw [he] at hiff hreplies ⊢
        have hnot : ¬ Inserts s.broker := fun h => by simpa using hiff.mpr h
        exact attempt_answer (ofError_written 500 .publish) rfl ((replies_note rfl).trans hreplies)
          (.refused ht hdelivers hnot ⟨⟨rfl, rfl, rfl, rfl⟩, rfl⟩)
      · rw [he] at hiff hreplies ⊢
        refine attempt_answer rfl rfl ((replies_note rfl).trans hreplies)
          (.created ht hdelivers (hiff.mp rfl) ⟨?_, ?_⟩)
        · change (Broker.notify _ topic .publish).store.queue = _
          rw [store_notify]
          exact (hd.sound.inserted hd.clock hi).2
        · change (Broker.notify _ topic .publish).store.claims = _
          rw [store_notify]
          obtain ⟨-, rfl⟩ := Store.insert_ok hi
          rfl

/-- A request to publish that has not been answered. Its task is to run, unless it has run before
and more of the body is to come. -/
structure Pending (limit : Nat) (rest : Bytes) (name : String) (r : Request) (s : Server) :
    Prop where
  look : s.requests.look name = some r
  route : ∃ topic?, r.route = .handle .publish topic? ∧
    ∀ topic, topic? = some topic ↔ Names rest topic
  stage : r.stage = .arrived ∨ ∃ topic, Names rest topic ∧ r.stage = .collecting topic
  replies : s.broker.repliesTo r.task = []
  ready : r.task ∈ s.broker.ready ∨
    (∃ topic, Names rest topic) ∧ r.bodyOpen = true ∧ ¬ Broken limit r.body

theorem Pending.attempt (h : Pending limit rest name r s) {t : Server}
    (hd : t.broker.ledger.Durable) (hlimit : t.maxPayload = limit) :
    Attempt limit rest name r t (t.runRequest name r) := by
  subst hlimit
  obtain ⟨topic?, hroute, hnames⟩ := h.route
  unfold runRequest
  rcases h.stage with hstage | ⟨topic, ht, hstage⟩
  · rw [hstage]
    dsimp only
    unfold handle
    rw [hroute]
    cases topic? with
    | none =>
      have hnone : ∀ topic, ¬ Names rest topic := fun topic ht => by
        cases (hnames topic).mpr ht
      exact attempt_answer (ofError_written 400 .invalidTopic) rfl (replies_note rfl)
        (.invalid hnone ⟨⟨rfl, rfl, rfl, rfl⟩, rfl⟩)
    | some topic =>
      have ht := (hnames topic).mp rfl
      have hbefore := (frame_setSpan t (some ⟨Handler.publish.text, some topic⟩)).trans
        (frame_note _ (n := .publishing) rfl)
      exact (attempt_publish
        (s := (t.setSpan (some ⟨Handler.publish.text, some topic⟩)).note .publishing) hd ht).framed
        hbefore (frame_setSpan _ none)
  · rw [hstage]
    have hbefore := frame_setSpan t (some ⟨Handler.publish.text, some topic⟩)
    exact (attempt_publish (s := t.setSpan (some ⟨Handler.publish.text, some topic⟩)) hd ht).framed
      hbefore (frame_setSpan _ none)

/-- A request that has got this one answer. -/
structure Done (name : String) (task : Nat) (response : Response) (s : Server) : Prop where
  request : ∃ r, s.requests.look name = some r ∧ r.task = task ∧ r.stage = .done
  replies : s.broker.repliesTo task = [response]

theorem Pending.keeps (h : Pending limit rest name r s) (hk : Keeps name r s s') :
    Pending limit rest name r s' :=
  ⟨hk.look, h.route, h.stage, hk.replies.trans h.replies, h.ready.imp_left hk.ready⟩

theorem Done.moved {who : Option String} (h : Done name task response s) (hm : Moved who s s')
    (hne : some name ≠ who) : Done name task response s' := by
  obtain ⟨r, hlook, rfl, hdone⟩ := h.request
  have hk := hm.others name r hne hlook
  exact ⟨⟨r, hk.look, rfl, hdone⟩, hk.replies.trans h.replies⟩

/-- The request's own turn. -/
theorem Pending.turn (hs : s.Orderly) (h : Pending s.maxPayload rest name r s)
    (hhead : s.broker.ready.head? = some r.task) :
    (∃ topic, Still s.taken s.turn ∧
      Pending s.maxPayload rest name { r with stage := .collecting topic } s.turn) ∨
    ∃ response, Outcome s.maxPayload rest r.upload s.taken s.turn response ∧
      Done name r.task response s.turn := by
  have hlook : s.taken.requests.look name = some r := h.look
  have hreplies : s.taken.broker.repliesTo r.task = [] := h.replies
  have hrun : s.turn = s.taken.runRequest name r := by
    have hfind := (hs.take hhead).orderly.find hlook
    simp only [turn_head hhead, Server.run, hfind]
  have hattempt := h.attempt (t := s.taken) (hs.take hhead).orderly.durable rfl
  rw [← hrun] at hattempt
  cases hattempt with
  | @waits topic ht hopen hwhole hstill hrequests hsame =>
    refine .inl ⟨topic, hstill, ?_, h.route, .inr ⟨topic, ht, rfl⟩, ?_,
      .inr ⟨⟨topic, ht⟩, hopen, hwhole⟩⟩
    · rw [hrequests, Table.look_put_self]
    · rw [← hreplies]
      simp only [repliesTo, hsame]
  | @settles response ho hrequests hmore =>
    refine .inr ⟨response, ho, ⟨{ r with stage := .done }, ?_, rfl, rfl⟩, ?_⟩
    · rw [hrequests, Table.look_put_self]
    · rw [← hreplies]
      simp [repliesTo, hmore]

theorem Done.turn (hs : s.Orderly) (h : Done name task response s)
    (hhead : s.broker.ready.head? = some task) :
    Still s.taken s.turn ∧ Done name task response s.turn := by
  obtain ⟨r, hlook, rfl, hdone⟩ := h.request
  have hrun : s.turn = s.taken := by
    have hfind := (hs.take hhead).orderly.find hlook
    simp only [turn_head hhead, Server.run, hfind, runRequest, hdone]
  rw [hrun]
  exact ⟨⟨⟨rfl, rfl, rfl, rfl⟩, rfl⟩, ⟨r, hlook, rfl, hdone⟩, h.replies⟩

theorem repliesTo_enqueue (b : Broker) (other task : Nat) :
    (b.enqueue other).repliesTo task = b.repliesTo task := by
  simp only [repliesTo, replies_enqueue]

/-- A move is the request's own turn, or a step of its client, or that of another. -/
theorem Orderly.own_move (hs : s.Orderly) (h : s.requests.look name = some r)
    (hm : m.renounces name = false) :
    (m = .turn ∧ s.broker.ready.head? = some r.task) ∨ m.feeds name = true ∨
    (m.feeds name = false ∧ s.mover? m ≠ some name) := by
  cases m with
  | turn =>
    by_cases hhead : s.broker.ready.head? = some r.task
    · exact .inl ⟨rfl, hhead⟩
    · exact .inr (.inr ⟨rfl, mt (hs.mover_turn h).mp hhead⟩)
  | act action =>
    refine .inr ?_
    cases hfeeds : (Move.act action).feeds name with
    | true => exact .inl rfl
    | false =>
      refine .inr ⟨rfl, ?_⟩
      cases action <;> simp_all [Move.feeds, Move.renounces, mover?, Action.name?]

theorem after_other (h : m.feeds name = false) (u : Upload) : u.after name m = u := by
  cases m with
  | turn => rfl
  | act action => cases action <;> simp_all [Move.feeds, Upload.after]

/-- What a client's step comes to: nothing, if its body has ended, or a body that the task is to
look at. -/
inductive Fed (name : String) (r : Request) (s : Server) : Request → Server → Prop where
  | late : Fed name r s r s
  | more (body : List Chunk) (bodyOpen : Bool) :
      Fed name r s { r with body, bodyOpen } (Server.enqueue
        { s with requests := s.requests.put name { r with body, bodyOpen } } r.task)

theorem Pending.fed (h : Pending limit rest name r s) (hm : m.feeds name = true) :
    ∃ r', Fed name r s r' (s.move m) ∧ r'.upload = r.upload.after name m := by
  have hpush : ∀ chunk, ∃ r', Fed name r s r' (s.push name chunk).2 ∧
      r'.upload = if r.bodyOpen then ⟨r.body ++ [chunk], true⟩ else r.upload := by
    intro chunk
    cases hopen : r.bodyOpen with
    | false => exact ⟨r, by simpa [push, h.look, hopen] using Fed.late, rfl⟩
    | true =>
      have hmore : Fed name r s _ _ := .more (r.body ++ [chunk]) true
      refine ⟨{ r with body := r.body ++ [chunk], bodyOpen := true }, ?_, rfl⟩
      rcases h.stage with hstage | ⟨topic, -, hstage⟩ <;>
        simpa [push, h.look, hopen, hstage] using hmore
  cases m with
  | turn => cases hm
  | act action =>
    cases action with
    | send other octets | fail other =>
      obtain rfl : other = name := by simpa [Move.feeds] using hm
      obtain ⟨r', hf, hu⟩ := hpush _
      refine ⟨r', hf, hu.trans ?_⟩
      cases hopen : r.bodyOpen <;> simp [Upload.after, Request.upload, hopen]
    | close other =>
      obtain rfl : other = name := by simpa [Move.feeds] using hm
      cases hopen : r.bodyOpen with
      | false =>
        refine ⟨r, ?_, by simp [Upload.after, Request.upload, hopen]⟩
        simpa [move, perform, close, h.look, hopen] using Fed.late
      | true =>
        have hmore : Fed other r s _ _ := .more r.body false
        refine ⟨{ r with bodyOpen := false }, ?_, by simp [Upload.after, Request.upload]⟩
        rcases h.stage with hstage | ⟨topic, -, hstage⟩ <;>
          simpa [move, perform, close, h.look, hopen, hstage] using hmore
    | request | drop | shutdown | closeStore | fault | idle => cases hm

theorem quiet_enqueue (s : Server) (task : Nat) : Quiet s (s.enqueue task) := by
  unfold enqueue Broker.enqueue
  split <;> exact ⟨rfl, rfl, rfl, rfl⟩

theorem Pending.feed (h : Pending limit rest name r s) (hm : m.feeds name = true) :
    Quiet s (s.move m) ∧ ∃ r', Pending limit rest name r' (s.move m) ∧ r'.task = r.task ∧
      r'.upload = r.upload.after name m := by
  obtain ⟨r', hf, hu⟩ := h.fed hm
  generalize s.move m = s' at *
  cases hf with
  | late => exact ⟨⟨rfl, rfl, rfl, rfl⟩, r, h, rfl, hu⟩
  | more body bodyOpen =>
    have hquiet := quiet_enqueue
      { s with requests := s.requests.put name { r with body, bodyOpen } } r.task
    refine ⟨⟨hquiet.store, hquiet.consumers, hquiet.topics, hquiet.sessions⟩, _,
      ⟨Table.look_put_self .., h.route, h.stage, ?_, .inl (mem_enqueue s.broker r.task)⟩, rfl, hu⟩
    exact (repliesTo_enqueue s.broker r.task r.task).trans h.replies

theorem Done.feed (h : Done name task response s) (hm : m.feeds name = true) :
    Quiet s (s.move m) ∧ Done name task response (s.move m) := by
  obtain ⟨r, hlook, htask, hdone⟩ := h.request
  have hpush : ∀ chunk, (s.push name chunk).2 = s := by
    intro chunk
    cases hopen : r.bodyOpen <;> simp [push, hlook, hopen, hdone]
  have hsame : Quiet s s := ⟨rfl, rfl, rfl, rfl⟩
  cases m with
  | turn => cases hm
  | act action =>
    cases action with
    | send other octets | fail other =>
      obtain rfl : other = name := by simpa [Move.feeds] using hm
      rw [move, perform, hpush]
      exact ⟨hsame, h⟩
    | close other =>
      obtain rfl : other = name := by simpa [Move.feeds] using hm
      cases hopen : r.bodyOpen with
      | false =>
        have hclosed : s.move (.act (.close other)) = s := by
          simp [move, perform, close, hlook, hopen]
        rw [hclosed]
        exact ⟨hsame, h⟩
      | true =>
        have hclosed : s.move (.act (.close other)) =
            { s with requests := s.requests.put other { r with bodyOpen := false } } := by
          simp [move, perform, close, hlook, hopen, hdone]
        rw [hclosed]
        exact ⟨⟨rfl, rfl, rfl, rfl⟩, ⟨_, Table.look_put_self .., htask, hdone⟩, h.replies⟩
    | request | drop | shutdown | closeStore | fault | idle => cases hm

theorem Done.move (hs : s.Orderly) (h : Done name task response s)
    (hm : m.renounces name = false) : Done name task response (s.move m) := by
  obtain ⟨r, hlook, rfl, -⟩ := h.request
  rcases hs.own_move hlook hm with ⟨rfl, hhead⟩ | hfeeds | ⟨-, hother⟩
  · exact (h.turn hs hhead).2
  · exact (h.feed hfeeds).2
  · exact h.moved (hs.move m) (Ne.symm hother)

/-- A request waits for its answer until its own turn, which may give it. -/
theorem Pending.move (hs : s.Orderly) (h : Pending s.maxPayload rest name r s)
    (hm : m.renounces name = false) :
    (∃ r', Pending s.maxPayload rest name r' (s.move m) ∧ r'.task = r.task ∧
      r'.upload = r.upload.after name m) ∨
    m = .turn ∧ s.broker.ready.head? = some r.task ∧ ∃ response,
      Outcome s.maxPayload rest r.upload s.taken s.turn response ∧
      Done name r.task response s.turn := by
  rcases hs.own_move h.look hm with ⟨rfl, hhead⟩ | hfeeds | ⟨hfeeds, hother⟩
  · rcases h.turn hs hhead with ⟨topic, -, hp⟩ | hanswered
    · exact .inl ⟨_, hp, rfl, rfl⟩
    · exact .inr ⟨rfl, hhead, hanswered⟩
  · exact .inl (h.feed hfeeds).2
  · have hkeeps := (hs.move m).others name r (Ne.symm hother) h.look
    exact .inl ⟨r, h.keeps hkeeps, rfl, (after_other hfeeds _).symm⟩

/-- Where a request to publish stands after some moves. -/
inductive Stands (limit : Nat) (rest : Bytes) (name : String) (task : Nat) (u : Upload)
    (start : Server) (ms : List Move) : Prop where
  | pending {p : Request} (hp : Pending limit rest name p (start.moves ms)) (htask : p.task = task)
      (hu : p.upload = u.afterAll name ms)
  | answered (before since : List Move) {answer : Response} (he : ms = before ++ .turn :: since)
      (hhead : (start.moves before).broker.ready.head? = some task)
      (hfirst : (start.moves before).broker.repliesTo task = [])
      (ho : Outcome limit rest (u.afterAll name ms) (start.moves before).taken
        (start.moves before).turn answer)
      (hdone : Done name task answer (start.moves ms))

theorem moves_concat (s : Server) (ms : List Move) (m : Move) :
    s.moves (ms ++ [m]) = (s.moves ms).move m := moves_append s ms [m]

theorem afterAll_concat (name : String) (u : Upload) (ms : List Move) (m : Move) :
    u.afterAll name (ms ++ [m]) = (u.afterAll name ms).after name m := List.foldl_append

theorem stands_moves {start : Server} (hs : start.Orderly)
    (h : Pending start.maxPayload rest name r start) (ms : List Move)
    (hms : ∀ m ∈ ms, m.renounces name = false) :
    Stands start.maxPayload rest name r.task r.upload start ms := by
  induction ms using List.reverseRecOn with
  | nil => exact .pending h rfl rfl
  | append_singleton ms m ih =>
    have hlast := hms m (List.mem_append_right ms (List.mem_singleton_self m))
    have ho := hs.moves ms
    cases ih fun m' hm' => hms m' (List.mem_append_left _ hm') with
    | pending hp htask hu =>
      rw [← hs.moves_maxPayload ms] at hp
      rcases hp.move ho hlast with ⟨r', hp', htask', hu'⟩ | ⟨rfl, hhead, answer, houtcome, hdone⟩
      · rw [hs.moves_maxPayload ms, ← moves_concat] at hp'
        exact .pending hp' (htask'.trans htask) (by rw [hu', hu, afterAll_concat])
      · have hupload : r.upload.afterAll name (ms ++ [.turn]) = r.upload.afterAll name ms :=
          afterAll_concat name r.upload ms .turn
        have hturn : start.moves (ms ++ [.turn]) = (start.moves ms).turn :=
          moves_concat start ms .turn
        rw [hs.moves_maxPayload ms, hu, ← hupload] at houtcome
        rw [htask, ← hturn] at hdone
        exact .answered ms [] rfl (htask ▸ hhead) (htask ▸ hp.replies) houtcome hdone
    | answered before since he hhead hfirst houtcome hdone =>
      have houtcome' := houtcome.after name m
      have hdone' := hdone.move ho hlast
      rw [← afterAll_concat] at houtcome'
      rw [← moves_concat] at hdone'
      have he' : ms ++ [m] = before ++ .turn :: (since ++ [m]) := by
        rw [he, List.append_assoc, List.cons_append]
      exact .answered before (since ++ [m]) he' hhead hfirst houtcome' hdone'

/-- What becomes of a request to publish in the course of some moves. -/
structure Fate (limit : Nat) (rest : Bytes) (name : String) (task : Nat) (u : Upload)
    (start : Server) (ms : List Move) : Prop where
  /-- There is at most one answer, given in a turn of the request's own. -/
  answered : (start.moves ms).broker.repliesTo task = [] ∨ ∃ before since response,
    ms = before ++ .turn :: since ∧ (start.moves before).broker.ready.head? = some task ∧
    Outcome limit rest (u.afterAll name ms) (start.moves before).taken (start.moves before).turn
      response ∧
    (response.status = 201 ↔ (∃ topic, Names rest topic) ∧
      (∃ payload, (u.afterAll name ms).Delivers limit payload) ∧
      Inserts (start.moves before).broker) ∧
    (start.moves before).broker.repliesTo task = [] ∧
    (start.moves ms).broker.repliesTo task = [response]
  /-- A turn of its own that gives no answer does nothing. -/
  idle : (start.moves ms).broker.ready.head? = some task →
    (start.moves ms).turn.broker.repliesTo task = (start.moves ms).broker.repliesTo task →
    Still (start.moves ms).taken (start.moves ms).turn
  /-- What its client sends does nothing by itself. -/
  sent : ∀ m, m.feeds name = true → Quiet (start.moves ms) ((start.moves ms).move m)
  /-- Nothing but a body that is open and not broken yet keeps the answer back. -/
  due : (start.moves ms).drain.broker.repliesTo task = [] →
    (∃ topic, Names rest topic) ∧ (u.afterAll name ms).isOpen = true ∧
      ¬ Broken limit (u.afterAll name ms).chunks

variable {start : Server} {ms : List Move}

theorem Stands.answered_once (h : Stands limit rest name task u start ms) :
    (start.moves ms).broker.repliesTo task = [] ∨ ∃ before since response,
      ms = before ++ .turn :: since ∧ (start.moves before).broker.ready.head? = some task ∧
      Outcome limit rest (u.afterAll name ms) (start.moves before).taken (start.moves before).turn
        response ∧
      (response.status = 201 ↔ (∃ topic, Names rest topic) ∧
        (∃ payload, (u.afterAll name ms).Delivers limit payload) ∧
        Inserts (start.moves before).broker) ∧
      (start.moves before).broker.repliesTo task = [] ∧
      (start.moves ms).broker.repliesTo task = [response] := by
  cases h with
  | pending hp htask hu => exact .inl (htask ▸ hp.replies)
  | answered before since he hhead hfirst ho hdone =>
    exact .inr ⟨before, since, _, he, hhead, ho, ho.created_iff, hfirst, hdone.replies⟩

theorem Stands.idle (hs : start.Orderly)
    (h : Stands start.maxPayload rest name task u start ms)
    (hhead : (start.moves ms).broker.ready.head? = some task)
    (hsame : (start.moves ms).turn.broker.repliesTo task = (start.moves ms).broker.repliesTo task) :
    Still (start.moves ms).taken (start.moves ms).turn := by
  cases h with
  | pending hp htask hu =>
    rw [← hs.moves_maxPayload ms] at hp
    rw [← htask] at hhead hsame
    rcases hp.turn (hs.moves ms) hhead with ⟨topic, hstill, -⟩ | ⟨answer, -, hdone⟩
    · exact hstill
    · rw [hdone.replies, hp.replies] at hsame
      cases hsame
  | answered before since he hfirst hnone ho hdone => exact (hdone.turn (hs.moves ms) hhead).1

theorem Stands.sent (h : Stands limit rest name task u start ms) (hm : m.feeds name = true) :
    Quiet (start.moves ms) ((start.moves ms).move m) := by
  cases h with
  | pending hp htask hu => exact (hp.feed hm).1
  | answered before since he hhead hfirst ho hdone => exact (hdone.feed hm).1

/-- With turns alone no more of a body comes. -/
theorem afterAll_turns (name : String) (u : Upload) (turns : Nat) :
    u.afterAll name (List.replicate turns .turn) = u := by
  induction turns with
  | zero => rfl
  | succ turns ih => exact ih

/-- Where the request stands after a drain. -/
theorem Stands.due (hs : start.Orderly)
    (h : Stands limit rest name task u start
      (ms ++ List.replicate (start.moves ms).weight .turn))
    (hnone : (start.moves ms).drain.broker.repliesTo task = []) :
    (∃ topic, Names rest topic) ∧ (u.afterAll name ms).isOpen = true ∧
      ¬ Broken limit (u.afterAll name ms).chunks := by
  have hempty := (hs.moves ms).drain_done
  have hupload : u.afterAll name (ms ++ List.replicate (start.moves ms).weight .turn) =
      u.afterAll name ms := List.foldl_append.trans (afterAll_turns name _ _)
  rw [drain_moves, ← moves_append] at hnone hempty
  cases h with
  | pending hp htask hu =>
    rw [hupload] at hu
    rcases hp.ready with hready | hwaits
    · rw [hempty] at hready
      cases hready
    · rwa [← hu]
  | answered before since he hhead hfirst ho hdone =>
    rw [hdone.replies] at hnone
    cases hnone

theorem repliesTo_fresh (hs : s.Orderly) (h : s.broker.nextId ≤ task) :
    s.broker.repliesTo task = [] := by
  simp only [repliesTo, List.map_eq_nil_iff, List.filter_eq_nil_iff, decide_eq_true_eq]
  intro p hp
  exact Nat.ne_of_lt (Nat.lt_of_lt_of_le (hs.replied p hp) h)

/-- A request that has come in waits for its first turn. -/
theorem pending_arrive (hs : s.Orderly) (name : String) {target : String} (body : List Bytes)
    (bodyOpen : Bool) (hpath : Target.path? target = some (Bytes.ofText "/publish" ++ rest))
    (hrest : rest = [] ∨ ∃ segment, rest = slash :: segment ∧ slash ∉ segment) :
    ∃ r, Pending s.maxPayload rest name r
        (s.perform (.request name "POST" target body bodyOpen)).2 ∧
      r.task = s.broker.nextId ∧ r.upload = ⟨body.map .data, bodyOpen⟩ := by
  obtain ⟨topic?, hroute, hnames⟩ := Route.of_publish hpath hrest
  have hleft := (hs.leave name).orderly
  have hfresh := repliesTo_fresh hleft (Nat.le_refl _)
  have harrive : (s.perform (.request name "POST" target body bodyOpen)).2 =
      s.arrive name (.handle .publish topic?) body bodyOpen := by
    simp only [Server.perform, hroute]
  rw [harrive]
  refine ⟨{
      task := (s.leave name).broker.nextId
      route := .handle .publish topic?
      body := body.map .data
      bodyOpen }, ⟨?_, ⟨topic?, rfl, hnames⟩, .inl rfl, ?_, ?_⟩, s.leave_nextId name, rfl⟩
  · exact Table.look_put_self ..
  · exact (repliesTo_enqueue _ _ _).trans hfresh
  · exact .inl (mem_enqueue _ _)

/-- A request to publish is all or nothing, whatever comes of its body in whatever chunks and
whatever happens meanwhile. -/
theorem publication_all_or_nothing (hs : s.Orderly) {target : String} (body : List Bytes)
    (bodyOpen : Bool) (hpath : Target.path? target = some (Bytes.ofText "/publish" ++ rest))
    (hrest : rest = [] ∨ ∃ segment, rest = slash :: segment ∧ slash ∉ segment) (ms : List Move)
    (hms : ∀ m ∈ ms, m.renounces name = false) :
    Fate s.maxPayload rest name s.broker.nextId ⟨body.map .data, bodyOpen⟩
      (s.perform (.request name "POST" target body bodyOpen)).2 ms := by
  have hperformed := hs.perform (.request name "POST" target body bodyOpen)
  obtain ⟨r, hpending, htask, hu⟩ := pending_arrive hs name body bodyOpen hpath hrest
  generalize (s.perform (.request name "POST" target body bodyOpen)).2 = start at *
  have hstart := hperformed.orderly
  rw [← hperformed.maxPayload] at hpending ⊢
  rw [← htask, ← hu]
  have hstands := stands_moves hstart hpending ms hms
  have hafter := hstart.moves ms
  have hrested : Stands start.maxPayload rest name r.task r.upload start
      (ms ++ List.replicate (start.moves ms).weight .turn) := by
    refine stands_moves hstart hpending _ fun m hm => ?_
    rcases List.mem_append.mp hm with hm | hm
    · exact hms m hm
    · rw [List.eq_of_mem_replicate hm]
      rfl
  exact ⟨hstands.answered_once, hstands.idle hstart, fun _ => hstands.sent, hrested.due hstart⟩

/-- Two chunks that reach the limit together, and what each failure is answered with: a path that
names no topic, a chunk that goes over the limit, a body that is lost, a store that refuses. -/
theorem publications_answered :
    let asked (target : String) (faults : Faults) := (perform
      { service := { broker := { faults } }, maxPayload := 2 } (.request "p" "POST" target [] true)).2
    let failed (status : Nat) (text : String) : List Response := [{
      status
      contentType := some "application/json"
      body := "\x7b\"error\":\"" ++ text ++ "\"\x7d" }]
    let whole := [.turn, .act (.send "p" [1]), .act (.send "p" [2]), .act (.close "p"), .turn]
    let long := [.act (.send "p" [1]), .turn, .act (.send "p" [2, 3]), .turn]
    let lost := [.act (.send "p" [1]), .act (.fail "p"), .turn]
    (Fate 2 [slash, 0x61] "p" 0 ⟨[], true⟩ (asked "/publish/a" []) whole ∧
      ((asked "/publish/a" []).moves whole).broker.repliesTo 0 = [{ status := 201 }]) ∧
    (Fate 2 [slash] "p" 0 ⟨[], true⟩ (asked "/publish/" []) whole ∧
      ((asked "/publish/" []).moves whole).broker.repliesTo 0 =
        failed 400 "invalid topic value") ∧
    (Fate 2 [slash, 0x61] "p" 0 ⟨[], true⟩ (asked "/publish/a" []) long ∧
      ((asked "/publish/a" []).moves long).broker.repliesTo 0 =
        failed 500 "error reading the request body") ∧
    (Fate 2 [slash, 0x61] "p" 0 ⟨[], true⟩ (asked "/publish/a" []) lost ∧
      ((asked "/publish/a" []).moves lost).broker.repliesTo 0 =
        failed 500 "error reading the request body") ∧
    (Fate 2 [slash, 0x61] "p" 0 ⟨[], true⟩ (asked "/publish/a" [(.insert, ⟨.closed, 0, 1⟩)]) whole ∧
      ((asked "/publish/a" [(.insert, ⟨.closed, 0, 1⟩)]).moves whole).broker.repliesTo 0 =
        failed 500 "error publishing to broker") := by
  have started (faults : Faults) :
      Orderly { service := { broker := { faults } }, maxPayload := 2 } :=
    orderly_start {} (Store.sound_empty false false) faults 2
  have named : ([slash, 0x61] : Bytes) = [] ∨
      ∃ segment, ([slash, 0x61] : Bytes) = slash :: segment ∧ slash ∉ segment :=
    .inr ⟨[0x61], rfl, by decide⟩
  have nameless : ([slash] : Bytes) = [] ∨
      ∃ segment, ([slash] : Bytes) = slash :: segment ∧ slash ∉ segment := .inr ⟨[], rfl, by decide⟩
  refine ⟨⟨?_, by decide +kernel⟩, ⟨?_, by decide +kernel⟩, ⟨?_, by decide +kernel⟩,
    ⟨?_, by decide +kernel⟩, ?_, by decide +kernel⟩
  · exact publication_all_or_nothing (started []) [] true (by decide +kernel) named _ (by decide)
  · exact publication_all_or_nothing (started []) [] true (by decide +kernel) nameless _ (by decide)
  · exact publication_all_or_nothing (started []) [] true (by decide +kernel) named _ (by decide)
  · exact publication_all_or_nothing (started []) [] true (by decide +kernel) named _ (by decide)
  · exact publication_all_or_nothing (started _) [] true (by decide +kernel) named _ (by decide)

end Server

end TopicQueue.Http

import TopicQueue.Proofs.EntryForm
import TopicQueue.Store

namespace TopicQueue

/-- An entry as the readers of its topic see it: its payload, or what is wrong with it. -/
abbrev Item := Except Json.Flaw Bytes

def StoredEntry.item (value : Bytes) : Item := (decode value).map (·.payload)

/-- A topic: its entries, the oldest first, and whether that one is claimed. -/
structure Queue where
  entries : List Item := []
  claimed : Bool := false
  deriving DecidableEq

/-- Calls that concern one topic. -/
inductive QueueCall where
  | insert (payload : Bytes) (now : Int64)
  | fetchNext
  | commit
  | requeue
  | size

inductive Request where
  | call (topic : String) (call : QueueCall)
  | close
  | reopen (flushOnInsert : Bool)

inductive Reply where
  | done
  | fetched (payload : Option Bytes)
  | counted (entries : Nat)
  deriving DecidableEq

abbrev Outcome := Except StoreError Reply

/-- What each call has to answer, and what it has to leave. -/
def Queue.serve (topic : String) (q : Queue) : QueueCall → Outcome × Queue
  | .insert payload _ => (.ok .done, { q with entries := q.entries ++ [.ok payload] })
  | .fetchNext =>
    if q.claimed then (.ok (.fetched none), q)
    else match q.entries with
      | [] => (.ok (.fetched none), q)
      | .error flaw :: _ => (.error (.codec flaw), q)
      | .ok payload :: _ => (.ok (.fetched (some payload)), { q with claimed := true })
  | .commit =>
    if q.claimed then (.ok .done, ⟨q.entries.tail, false⟩)
    else (.error (.nothingClaimed topic), q)
  | .requeue =>
    if q.claimed then (.ok .done, { q with claimed := false })
    else (.error (.nothingClaimed topic), q)
  | .size => (.ok (.counted q.entries.length), q)

structure Queues where
  closed : Bool
  queue : String → Queue

namespace Queues

def serve (q : Queues) : Request → Outcome × Queues
  | .call topic call =>
    if q.closed then (.error .closed, q)
    else
      let (answer, left) := (q.queue topic).serve topic call
      (answer, { q with queue := Function.update q.queue topic left })
  | .close => (.ok .done, { q with closed := true })
  | .reopen _ => (.ok .done, ⟨false, fun topic => { q.queue topic with claimed := false }⟩)

/-- Open queues that hold these values, of which each goes to its topic. -/
def preloaded (raw : List (String × Bytes)) : Queues :=
  ⟨false, fun topic => ⟨(raw.filter (·.1 = topic)).map fun r => StoredEntry.item r.2, false⟩⟩

end Queues

namespace Store

/-- An operation that gives a new store, or leaves the old one. -/
def settled (s : Store) : Except StoreError Store → Outcome × Store
  | .error e => (.error e, s)
  | .ok s' => (.ok .done, s')

def serve (s : Store) : Request → Outcome × Store
  | .call topic (.insert payload now) => s.settled (s.insert topic payload now.toInt)
  | .call topic .fetchNext =>
    match s.fetchNext topic with
    | .error e => (.error e, s)
    | .ok (payload, s') => (.ok (.fetched payload), s')
  | .call topic .commit => s.settled (s.commit topic)
  | .call topic .requeue => s.settled (s.requeue topic)
  | .call topic .size => ((s.size topic).map .counted, s)
  | .close => (.ok .done, s.close)
  | .reopen flushOnInsert => (.ok .done, s.reopen flushOnInsert)

/-- A store whose files hold these values from before, in this order. -/
def preloaded (flushOnInsert : Bool) (raw : List (String × Bytes)) : Store :=
  raw.foldl (fun s r => s.append r.1 r.2) { flushOnInsert }

end Store

/-- The answers to a sequence of requests, and what they leave. -/
def serveAll {σ : Type} (serve : σ → Request → Outcome × σ) : σ → List Request → List Outcome × σ
  | s, [] => ([], s)
  | s, request :: requests =>
    let (answer, s) := serve s request
    let (answers, s) := serveAll serve s requests
    (answer :: answers, s)

theorem Tree.insert_last {t : Tree} {key : Nat} (h : ∀ e ∈ t, e.1 < key) (value : Bytes) :
    t.insert key value = t ++ [(key, value)] := by
  induction t with
  | nil => rfl
  | cons e t ih =>
    have he := h e (by simp)
    have hlt : ¬ key < e.1 := by omega
    have hne : ¬ key = e.1 := by omega
    simp [Tree.insert, hlt, hne, ih (fun d hd => h d (by simp [hd]))]

theorem Tree.remove_first {key : Nat} {value : Bytes} {rest : Tree}
    (h : ((key, value) :: rest).Pairwise fun d e => d.1 < e.1) :
    Tree.remove key ((key, value) :: rest) = rest := by
  have hrest : rest.filter (fun e => e.1 != key) = rest := by
    apply List.filter_eq_self.mpr
    intro e he
    have hlt : key < e.1 := (List.pairwise_cons.mp h).1 e he
    simpa using Nat.ne_of_gt hlt
  simp [Tree.remove, hrest]

namespace Store

/-- A topic of the store, as the reference has it. -/
def queue (s : Store) (topic : String) : Queue :=
  ⟨(s.tree topic).map fun e => StoredEntry.item e.2, (s.claim? topic).isSome⟩

def queues (s : Store) : Queues := ⟨s.closed, s.queue⟩

/-- Keys ascend in every tree and stay below the next one, and a claim is on the first entry. The
last is why a claim has only to be forgotten for its entry to be back in front. -/
structure Sound (s : Store) : Prop where
  ascending : ∀ topic, (s.tree topic).Pairwise fun d e => d.1 < e.1
  below : ∀ topic, ∀ e ∈ s.tree topic, e.1 < s.nextKey
  claimed_first : ∀ topic key, s.claim? topic = some key →
    ∃ value rest, s.tree topic = (key, value) :: rest

variable {s s' : Store} {topic : String}

theorem sound_empty (flushOnInsert closed : Bool) : Sound { flushOnInsert, closed } := by
  constructor <;> simp [tree, claim?, Table.look]

theorem Sound.append_tree (h : s.Sound) (topic : String) (value : Bytes) (other : String) :
    (s.append topic value).tree other =
      if other = topic then s.tree topic ++ [(s.nextKey, value)] else s.tree other := by
  have hlast := Tree.insert_last (h.below topic) value
  by_cases ho : other = topic
  · simpa [append, tree, ho] using hlast
  · simp [append, tree, Table.look_put, ho]

theorem Sound.append (h : s.Sound) (topic : String) (value : Bytes) :
    (s.append topic value).Sound := by
  refine ⟨?_, ?_, ?_⟩
  · intro other
    rw [h.append_tree]
    split
    · refine List.pairwise_append.mpr ⟨h.ascending topic, by simp, ?_⟩
      intro d hd e he
      rw [List.mem_singleton.mp he]
      exact h.below topic d hd
    · exact h.ascending other
  · intro other e he
    rw [h.append_tree] at he
    change e.1 < s.nextKey + 1
    split at he
    · rcases List.mem_append.mp he with he | he
      · exact Nat.lt_succ_of_lt (h.below topic e he)
      · rw [List.mem_singleton.mp he]
        exact Nat.lt_succ_self _
    · exact Nat.lt_succ_of_lt (h.below other e he)
  · intro other key hk
    obtain ⟨v, rest, ht⟩ := h.claimed_first other key hk
    rw [h.append_tree]
    split
    · rename_i ho
      exact ⟨v, rest ++ [(s.nextKey, value)], by rw [← ho, ht]; rfl⟩
    · exact ⟨v, rest, ht⟩

theorem Sound.append_queue (h : s.Sound) (topic : String) (value : Bytes) :
    (s.append topic value).queue = Function.update s.queue topic
      { s.queue topic with entries := (s.queue topic).entries ++ [StoredEntry.item value] } := by
  funext other
  rw [Function.update_apply]
  simp only [queue, h.append_tree]
  split
  · rename_i ho
    simp [ho, Store.append, claim?]
  · rfl

/-- The store with a claim on an entry of a topic. -/
def claim (s : Store) (topic : String) (key : Nat) : Store :=
  { s with claims := s.claims.put topic key }

/-- A claim on the first entry sets the bit. -/
theorem claim_queue (s : Store) (topic : String) (key : Nat) :
    (s.claim topic key).queue =
      Function.update s.queue topic { s.queue topic with claimed := true } := by
  funext other
  rw [Function.update_apply]
  by_cases ho : other = topic
  · simp [queue, claim, tree, claim?, ho]
  · simp [queue, claim, tree, claim?, Table.look_put, ho]

theorem Sound.claim (h : s.Sound) {key : Nat} {value : Bytes}
    (hf : (s.tree topic).first? = some (key, value)) : (s.claim topic key).Sound := by
  refine ⟨h.ascending, h.below, ?_⟩
  intro other k hk
  change Table.look (s.claims.put topic key) other = some k at hk
  rw [Table.look_put] at hk
  split at hk
  · rename_i ho
    cases hk
    obtain ⟨rest, ht⟩ := List.head?_eq_some_iff.mp hf
    exact ⟨value, rest, ho ▸ ht⟩
  · exact h.claimed_first other k hk

/-- The store without the claim of a topic. -/
def release (s : Store) (topic : String) : Store := { s with claims := s.claims.remove topic }

/-- Forgetting a claim clears the bit. -/
theorem release_queue (s : Store) (topic : String) :
    (s.release topic).queue =
      Function.update s.queue topic { s.queue topic with claimed := false } := by
  funext other
  rw [Function.update_apply]
  by_cases ho : other = topic
  · simp [queue, release, tree, claim?, ho]
  · simp [queue, release, tree, claim?, Table.look_remove, ho]

theorem Sound.release (h : s.Sound) (topic : String) : (s.release topic).Sound := by
  refine ⟨h.ascending, h.below, ?_⟩
  intro other k hk
  change Table.look (s.claims.remove topic) other = some k at hk
  rw [Table.look_remove] at hk
  split at hk
  · cases hk
  · exact h.claimed_first other k hk

/-- The store without the claimed entry of a topic. -/
def dropClaimed (s : Store) (topic : String) (key : Nat) : Store :=
  { s with
    trees := s.trees.put topic ((s.tree topic).remove key)
    claims := s.claims.remove topic }

theorem Sound.dropClaimed_tree (h : s.Sound) {key : Nat} {value : Bytes} {rest : Tree}
    (ht : s.tree topic = (key, value) :: rest) (other : String) :
    (s.dropClaimed topic key).tree other = if other = topic then rest else s.tree other := by
  have hrest := Tree.remove_first (ht ▸ h.ascending topic)
  by_cases ho : other = topic
  · rw [← ht] at hrest
    simpa [dropClaimed, tree, ho] using hrest
  · simp [dropClaimed, tree, Table.look_put, ho]

theorem Sound.dropClaimed (h : s.Sound) {key : Nat} {value : Bytes} {rest : Tree}
    (ht : s.tree topic = (key, value) :: rest) : (s.dropClaimed topic key).Sound := by
  have hsub : ∀ other, ((s.dropClaimed topic key).tree other).Sublist (s.tree other) := by
    intro other
    rw [h.dropClaimed_tree ht]
    split
    · rename_i ho
      rw [ho, ht]
      exact List.sublist_cons_self _ _
    · exact List.Sublist.refl _
  refine ⟨fun other => (h.ascending other).sublist (hsub other),
    fun other e he => h.below other e ((hsub other).subset he), ?_⟩
  intro other k hk
  change Table.look (s.claims.remove topic) other = some k at hk
  rw [Table.look_remove] at hk
  rw [h.dropClaimed_tree ht]
  split at hk
  · cases hk
  · rename_i ho
    rw [if_neg ho]
    exact h.claimed_first other k hk

/-- Removing the claimed entry takes the head off and clears the bit. -/
theorem Sound.dropClaimed_queue (h : s.Sound) {key : Nat} {value : Bytes} {rest : Tree}
    (ht : s.tree topic = (key, value) :: rest) :
    (s.dropClaimed topic key).queue =
      Function.update s.queue topic ⟨(s.queue topic).entries.tail, false⟩ := by
  funext other
  rw [Function.update_apply]
  simp only [queue, h.dropClaimed_tree ht]
  split
  · rename_i ho
    simp [ho, ht, Store.dropClaimed, claim?]
  · rename_i ho
    simp [Store.dropClaimed, claim?, Table.look_remove, ho]

@[simp] theorem closed_append (s : Store) (topic : String) (value : Bytes) :
    (s.append topic value).closed = s.closed := rfl

@[simp] theorem closed_claim (s : Store) (topic : String) (key : Nat) :
    (s.claim topic key).closed = s.closed := rfl

@[simp] theorem closed_release (s : Store) (topic : String) :
    (s.release topic).closed = s.closed := rfl

@[simp] theorem closed_dropClaimed (s : Store) (topic : String) (key : Nat) :
    (s.dropClaimed topic key).closed = s.closed := rfl

theorem claimed_queue (s : Store) (topic : String) :
    (s.queue topic).claimed = (s.claim? topic).isSome := rfl

theorem insert_ok {payload : Bytes} {now : Int} (h : s.insert topic payload now = .ok s') :
    s.closed = false ∧ s' = s.append topic (StoredEntry.encode ⟨payload, now⟩) := by
  unfold insert at h
  split at h
  · cases h
  · rename_i ho
    cases h
    exact ⟨by simpa using ho, rfl⟩

/-- Nothing is handed out only where the topic is claimed or empty. -/
theorem fetchNext_none (h : s.fetchNext topic = .ok (none, s')) :
    s' = s ∧ (s.claim? topic = none → s.tree topic = []) := by
  unfold fetchNext at h
  split at h
  · cases h
  split at h
  · rename_i key hk
    cases h
    exact ⟨rfl, fun hn => by simp [hk] at hn⟩
  split at h
  · rename_i hf
    cases h
    exact ⟨rfl, fun _ => List.head?_eq_none_iff.mp hf⟩
  · split at h <;> cases h

theorem fetchNext_some {payload : Bytes} (h : s.fetchNext topic = .ok (some payload, s')) :
    s.closed = false ∧ s.claim? topic = none ∧ ∃ key value rest,
      s.tree topic = (key, value) :: rest ∧ StoredEntry.item value = .ok payload ∧
      s' = s.claim topic key := by
  unfold fetchNext at h
  split at h
  · cases h
  rename_i ho
  split at h
  · cases h
  rename_i hk
  split at h
  · cases h
  rename_i key value hf
  obtain ⟨rest, ht⟩ := List.head?_eq_some_iff.mp hf
  split at h
  · cases h
  · rename_i entry hd
    cases h
    exact ⟨by simpa using ho, hk, key, value, rest, ht, by simp [StoredEntry.item, hd, Except.map], rfl⟩

theorem commit_ok (h : s.commit topic = .ok s') :
    s.closed = false ∧ ∃ key, s.claim? topic = some key ∧ s' = s.dropClaimed topic key := by
  unfold commit at h
  split at h
  · cases h
  rename_i ho
  split at h
  · cases h
  · rename_i key hk
    cases h
    exact ⟨by simpa using ho, key, hk, rfl⟩

theorem requeue_ok (h : s.requeue topic = .ok s') :
    s.closed = false ∧ ∃ key, s.claim? topic = some key ∧ s' = s.release topic := by
  unfold requeue at h
  split at h
  · cases h
  rename_i ho
  split at h
  · cases h
  · rename_i key hk
    cases h
    exact ⟨by simpa using ho, key, hk, rfl⟩

theorem Sound.reopen (h : s.Sound) (flushOnInsert : Bool) : (s.reopen flushOnInsert).Sound := by
  refine ⟨h.ascending, h.below, ?_⟩
  intro other k hk
  cases hk

/-- One call: the answer is the reference's, so is what is left, and the invariant stays. -/
structure Follows (s : Store) (request : Request) : Prop where
  answer : (s.serve request).1 = (s.queues.serve request).1
  left : (s.serve request).2.queues = (s.queues.serve request).2
  sound : (s.serve request).2.Sound

theorem Sound.follows_closed (h : s.Sound) (hc : s.closed = true) (topic : String)
    (call : QueueCall) : Follows s (.call topic call) := by
  cases call <;> constructor <;>
    simp [serve, Queues.serve, queues, hc, settled, insert, fetchNext, commit, requeue, size, h,
      Except.map]

theorem item_encode (payload : Bytes) (now : Int64) :
    StoredEntry.item (StoredEntry.encode ⟨payload, now.toInt⟩) = .ok payload := by
  have hl : -(Limit.bits63 : Int) ≤ now.toInt := now.le_toInt
  have hu : now.toInt < Limit.bits63 := now.toInt_lt
  simp [StoredEntry.item, StoredEntry.decode_encode (e := ⟨payload, now.toInt⟩) hl hu, Except.map]

theorem Sound.follows_insert (h : s.Sound) (ho : s.closed = false) (topic : String)
    (payload : Bytes) (now : Int64) : Follows s (.call topic (.insert payload now)) := by
  have hs : s.insert topic payload now.toInt =
      .ok (s.append topic (StoredEntry.encode ⟨payload, now.toInt⟩)) := by
    simp [insert, ho]
  have hq := h.append_queue topic (StoredEntry.encode ⟨payload, now.toInt⟩)
  rw [item_encode] at hq
  constructor
  · simp [serve, hs, settled, Queues.serve, queues, ho, Queue.serve]
  · simp [serve, hs, settled, Queues.serve, queues, ho, Queue.serve, hq]
  · simpa [serve, hs, settled] using h.append topic _

theorem Sound.follows_fetchNext (h : s.Sound) (ho : s.closed = false) (topic : String) :
    Follows s (.call topic .fetchNext) := by
  cases hk : s.claim? topic with
  | some key =>
    have hb : (s.queue topic).claimed = true := by simp [claimed_queue, hk]
    have hs : s.fetchNext topic = .ok (none, s) := by simp [fetchNext, ho, hk]
    constructor <;>
      simp [serve, hs, Queues.serve, queues, ho, Queue.serve, hb, h]
  | none =>
    have hb : (s.queue topic).claimed = false := by simp [claimed_queue, hk]
    cases ht : s.tree topic with
    | nil =>
      have he : (s.queue topic).entries = [] := by simp [queue, ht]
      have hs : s.fetchNext topic = .ok (none, s) := by simp [fetchNext, ho, hk, ht, Tree.first?]
      constructor <;>
        simp [serve, hs, Queues.serve, queues, ho, Queue.serve, hb, he, h]
    | cons e rest =>
      obtain ⟨key, value⟩ := e
      have hf : (s.tree topic).first? = some (key, value) := by simp [ht, Tree.first?]
      have he : (s.queue topic).entries =
          StoredEntry.item value :: rest.map fun e => StoredEntry.item e.2 := by simp [queue, ht]
      cases hd : StoredEntry.decode value with
      | error flaw =>
        have hs : s.fetchNext topic = .error (.codec flaw) := by simp [fetchNext, ho, hk, hf, hd]
        have hi : StoredEntry.item value = .error flaw := by simp [StoredEntry.item, hd, Except.map]
        constructor <;>
          simp [serve, hs, Queues.serve, queues, ho, Queue.serve, hb, he, hi, h]
      | ok entry =>
        have hs : s.fetchNext topic = .ok (some entry.payload, s.claim topic key) := by
          rw [fetchNext, if_neg (by simp [ho])]
          simp only [hk, hf, hd]
          rfl
        have hi : StoredEntry.item value = .ok entry.payload := by
          simp [StoredEntry.item, hd, Except.map]
        have hq := claim_queue s topic key
        constructor
        · simp [serve, hs, Queues.serve, queues, ho, Queue.serve, hb, he, hi]
        · simp [serve, hs, Queues.serve, queues, ho, Queue.serve, hb, he, hi, hq]
        · simpa [serve, hs] using h.claim hf

theorem Sound.follows_commit (h : s.Sound) (ho : s.closed = false) (topic : String) :
    Follows s (.call topic .commit) := by
  cases hk : s.claim? topic with
  | none =>
    have hb : (s.queue topic).claimed = false := by simp [claimed_queue, hk]
    have hs : s.commit topic = .error (.nothingClaimed topic) := by simp [commit, ho, hk]
    constructor <;> simp [serve, hs, settled, Queues.serve, queues, ho, Queue.serve, hb, h]
  | some key =>
    obtain ⟨value, rest, ht⟩ := h.claimed_first topic key hk
    have hb : (s.queue topic).claimed = true := by simp [claimed_queue, hk]
    have hs : s.commit topic = .ok (s.dropClaimed topic key) := by
      rw [commit, if_neg (by simp [ho])]
      simp only [hk]
      rfl
    have hq := h.dropClaimed_queue ht
    constructor
    · simp [serve, hs, settled, Queues.serve, queues, ho, Queue.serve, hb]
    · simp [serve, hs, settled, Queues.serve, queues, ho, Queue.serve, hb, hq]
    · simpa [serve, hs, settled] using h.dropClaimed ht

theorem Sound.follows_requeue (h : s.Sound) (ho : s.closed = false) (topic : String) :
    Follows s (.call topic .requeue) := by
  cases hk : s.claim? topic with
  | none =>
    have hb : (s.queue topic).claimed = false := by simp [claimed_queue, hk]
    have hs : s.requeue topic = .error (.nothingClaimed topic) := by simp [requeue, ho, hk]
    constructor <;> simp [serve, hs, settled, Queues.serve, queues, ho, Queue.serve, hb, h]
  | some key =>
    have hb : (s.queue topic).claimed = true := by simp [claimed_queue, hk]
    have hs : s.requeue topic = .ok (s.release topic) := by
      rw [requeue, if_neg (by simp [ho])]
      simp only [hk]
      rfl
    have hq := release_queue s topic
    constructor
    · simp [serve, hs, settled, Queues.serve, queues, ho, Queue.serve, hb]
    · simp [serve, hs, settled, Queues.serve, queues, ho, Queue.serve, hb, hq]
    · simpa [serve, hs, settled] using h.release topic

theorem Sound.follows_size (h : s.Sound) (ho : s.closed = false) (topic : String) :
    Follows s (.call topic .size) := by
  constructor <;>
    simp [serve, size, Queues.serve, queues, ho, Queue.serve, queue, h, Except.map]

theorem Sound.follows (h : s.Sound) (request : Request) : Follows s request := by
  cases request with
  | call topic call =>
    cases ho : s.closed with
    | true => exact h.follows_closed ho topic call
    | false =>
      cases call with
      | insert payload now => exact h.follows_insert ho topic payload now
      | fetchNext => exact h.follows_fetchNext ho topic
      | commit => exact h.follows_commit ho topic
      | requeue => exact h.follows_requeue ho topic
      | size => exact h.follows_size ho topic
  | close => exact ⟨rfl, rfl, ⟨h.ascending, h.below, h.claimed_first⟩⟩
  | reopen flushOnInsert => exact ⟨rfl, rfl, h.reopen flushOnInsert⟩

theorem Sound.follows_all (h : s.Sound) (requests : List Request) :
    (serveAll serve s requests).1 = (serveAll Queues.serve s.queues requests).1 ∧
    (serveAll serve s requests).2.queues = (serveAll Queues.serve s.queues requests).2 ∧
    (serveAll serve s requests).2.Sound := by
  induction requests generalizing s with
  | nil => exact ⟨rfl, rfl, h⟩
  | cons request requests ih =>
    obtain ⟨hanswer, hleft, hsound⟩ := h.follows request
    obtain ⟨hanswers, hrest, hlast⟩ := ih hsound
    simp only [serveAll, ← hleft, ← hanswer, hanswers, hrest]
    exact ⟨trivial, trivial, hlast⟩

theorem Sound.preload (h : s.Sound) (raw : List (String × Bytes)) :
    (raw.foldl (fun s r => s.append r.1 r.2) s).Sound := by
  induction raw generalizing s with
  | nil => exact h
  | cons r raw ih => exact ih (h.append r.1 r.2)

theorem preloaded_sound (flushOnInsert : Bool) (raw : List (String × Bytes)) :
    (preloaded flushOnInsert raw).Sound :=
  (sound_empty flushOnInsert false).preload raw

theorem Sound.preload_queue (h : s.Sound) (raw : List (String × Bytes)) (topic : String) :
    (raw.foldl (fun s r => s.append r.1 r.2) s).queue topic =
      ⟨(s.queue topic).entries ++
        (raw.filter (·.1 = topic)).map (fun r => StoredEntry.item r.2), (s.queue topic).claimed⟩ := by
  induction raw generalizing s with
  | nil => simp
  | cons r raw ih =>
    rw [List.foldl_cons, ih (h.append r.1 r.2), h.append_queue]
    by_cases hr : r.1 = topic
    · simp [hr]
    · simp [hr, Function.update_of_ne (Ne.symm hr)]

theorem preload_closed (raw : List (String × Bytes)) (s : Store) :
    (raw.foldl (fun s r => s.append r.1 r.2) s).closed = s.closed := by
  induction raw generalizing s with
  | nil => rfl
  | cons r raw ih => rw [List.foldl_cons, ih, closed_append]

theorem preloaded_queues (flushOnInsert : Bool) (raw : List (String × Bytes)) :
    (preloaded flushOnInsert raw).queues = Queues.preloaded raw := by
  have hqueue : (preloaded flushOnInsert raw).queue = (Queues.preloaded raw).queue := by
    funext topic
    exact (sound_empty flushOnInsert false).preload_queue raw topic
  have hclosed : (preloaded flushOnInsert raw).closed = false := preload_closed raw _
  simp [queues, hqueue, hclosed, Queues.preloaded]

/-- A call that fails leaves the store as it was. -/
theorem serve_error {request : Request} {e : StoreError} (h : (s.serve request).1 = .error e) :
    (s.serve request).2 = s := by
  have hsettled : ∀ r : Except StoreError Store, (s.settled r).1 = .error e → (s.settled r).2 = s := by
    intro r hr
    cases r with
    | error _ => rfl
    | ok _ => cases hr
  cases request with
  | call topic call =>
    cases call with
    | insert payload now => exact hsettled _ h
    | fetchNext =>
      simp only [serve] at h ⊢
      split at h <;> simp_all
    | commit => exact hsettled _ h
    | requeue => exact hsettled _ h
    | size => rfl
  | close => cases h
  | reopen flushOnInsert => cases h

theorem insert_other {payload : Bytes} {now : Int} {other : String}
    (h : s.insert topic payload now = .ok s') (ho : other ≠ topic) :
    s'.tree other = s.tree other ∧ s'.claim? other = s.claim? other := by
  rw [(insert_ok h).2]
  simp [append, tree, claim?, Table.look_put, ho]

theorem fetchNext_other {payload? : Option Bytes} {other : String}
    (h : s.fetchNext topic = .ok (payload?, s')) (ho : other ≠ topic) :
    s'.tree other = s.tree other ∧ s'.claim? other = s.claim? other := by
  cases payload? with
  | none => simp [(fetchNext_none h).1]
  | some payload =>
    obtain ⟨-, -, key, value, rest, -, -, rfl⟩ := fetchNext_some h
    simp [claim, tree, claim?, Table.look_put, ho]

theorem commit_other {other : String} (h : s.commit topic = .ok s') (ho : other ≠ topic) :
    s'.tree other = s.tree other ∧ s'.claim? other = s.claim? other := by
  obtain ⟨-, key, -, rfl⟩ := commit_ok h
  simp [dropClaimed, tree, claim?, Table.look_put, Table.look_remove, ho]

theorem requeue_other {other : String} (h : s.requeue topic = .ok s') (ho : other ≠ topic) :
    s'.tree other = s.tree other ∧ s'.claim? other = s.claim? other := by
  obtain ⟨-, key, -, rfl⟩ := requeue_ok h
  simp [release, tree, claim?, Table.look_remove, ho]

/-- A call on a topic leaves the trees and the claims of all others. -/
theorem serve_other (s : Store) (call : QueueCall) {other : String} (h : other ≠ topic) :
    (s.serve (.call topic call)).2.tree other = s.tree other ∧
    (s.serve (.call topic call)).2.claim? other = s.claim? other := by
  have hsettled : ∀ r : Except StoreError Store,
      (∀ s', r = .ok s' → s'.tree other = s.tree other ∧ s'.claim? other = s.claim? other) →
      (s.settled r).2.tree other = s.tree other ∧ (s.settled r).2.claim? other = s.claim? other := by
    intro r hr
    cases r with
    | error _ => exact ⟨rfl, rfl⟩
    | ok s' => exact hr s' rfl
  cases call with
  | insert payload now => exact hsettled _ fun _ hs => insert_other hs h
  | fetchNext =>
    cases hf : s.fetchNext topic with
    | error e => simp [serve, hf]
    | ok r =>
      obtain ⟨payload?, s'⟩ := r
      simpa [serve, hf] using fetchNext_other hf h
  | commit => exact hsettled _ fun _ hs => commit_other hs h
  | requeue => exact hsettled _ fun _ hs => requeue_other hs h
  | size => exact ⟨rfl, rfl⟩

/-- The store answers every sequence of calls as the reference does, whatever its files held
before, and ends as the reference ends. A claim is always on the first entry, a call that fails
changes nothing, and a call on a topic leaves the others alone. -/
theorem store_refines_queues (flushOnInsert : Bool) (raw : List (String × Bytes))
    (requests : List Request) :
    let run := serveAll serve (preloaded flushOnInsert raw) requests
    let reference := serveAll Queues.serve (Queues.preloaded raw) requests
    run.1 = reference.1 ∧ run.2.queues = reference.2 ∧
    (∀ topic key, run.2.claim? topic = some key →
      ∃ value rest, run.2.tree topic = (key, value) :: rest) ∧
    (∀ request e, (run.2.serve request).1 = .error e → (run.2.serve request).2 = run.2) ∧
    (∀ topic call other, other ≠ topic →
      (run.2.serve (.call topic call)).2.tree other = run.2.tree other ∧
      (run.2.serve (.call topic call)).2.claim? other = run.2.claim? other) := by
  obtain ⟨hanswers, hleft, hsound⟩ := (preloaded_sound flushOnInsert raw).follows_all requests
  rw [preloaded_queues] at hanswers hleft
  exact ⟨hanswers, hleft, hsound.claimed_first, fun _ _ he => serve_error he,
    fun _ call _ ho => serve_other _ call ho⟩

end Store

end TopicQueue

import Mathlib.Data.List.Dedup
import TopicQueue.Proofs.Sleepers

namespace TopicQueue

namespace Table

variable {κ α : Type} [DecidableEq κ] {t : Table κ α} {k : κ} {v : α}

theorem mem_of_look (h : t.look k = some v) : (k, v) ∈ t := by
  induction t with
  | nil => cases h
  | cons e t ih =>
    simp only [look] at h
    split at h
    · rename_i hk
      cases h
      rw [hk]
      exact List.mem_cons_self
    · exact List.mem_cons_of_mem e (ih h)

theorem look_of_mem (h : (k, v) ∈ t) : ∃ w, t.look k = some w := by
  induction t with
  | nil => cases h
  | cons e t ih =>
    simp only [look]
    split
    · exact ⟨e.2, rfl⟩
    · rename_i hk
      obtain rfl | hmem := List.mem_cons.mp h
      · exact absurd rfl hk
      · exact ih hmem

theorem look_eq_none : t.look k = none ↔ k ∉ t.map (·.1) := by
  induction t with
  | nil => simp [look]
  | cons p t ih =>
    by_cases h : k = p.1
    · simp [look, h]
    · simp only [look, h, if_false, ih, List.map_cons, List.mem_cons, false_or]

theorem look_append_of_notMem (h : k ∉ t.map (·.1)) (v : α) (k' : κ) :
    look (t ++ [(k, v)]) k' = if k' = k then some v else t.look k' := by
  induction t with
  | nil => simp [look]
  | cons p t ih =>
    simp only [List.map_cons, List.mem_cons, not_or] at h
    obtain ⟨hne, h⟩ := h
    simp only [List.cons_append, look, ih h]
    by_cases hp : k' = p.1
    · have hk : k' ≠ k := hp ▸ Ne.symm hne
      simp [hp, Ne.symm hne]
    · simp [hp]

theorem remove_of_notMem (h : k ∉ t.map (·.1)) : t.remove k = t := by
  refine List.filter_eq_self.mpr fun p hp => ?_
  have hne : k ≠ p.1 := by
    rintro rfl
    exact h (List.mem_map_of_mem hp)
  exact decide_eq_true hne

theorem keys_put (t : Table κ α) (k : κ) (v : α) :
    (t.put k v).map (·.1) = if k ∈ t.map (·.1) then t.map (·.1) else t.map (·.1) ++ [k] := by
  induction t with
  | nil => simp [put]
  | cons p t ih =>
    by_cases h : k = p.1
    · simp [put, h]
    · simp only [put, h, if_false, List.map_cons, ih, List.mem_cons, false_or]
      split <;> rfl

theorem nodup_put (h : (t.map (·.1)).Nodup) (k : κ) (v : α) : ((t.put k v).map (·.1)).Nodup := by
  rw [keys_put]
  split
  · exact h
  · rename_i hk
    rw [← List.concat_eq_append]
    exact h.concat hk

/-- Where no key comes twice, a table says of every key just what lies in it. -/
theorem mem_iff_look (h : (t.map (·.1)).Nodup) : (k, v) ∈ t ↔ t.look k = some v := by
  refine ⟨fun hm => ?_, mem_of_look⟩
  induction t with
  | nil => cases hm
  | cons p t ih =>
    obtain ⟨hp, h⟩ := List.nodup_cons.mp h
    simp only [look]
    rcases List.mem_cons.mp hm with rfl | hm
    · rw [if_pos rfl]
    · have hne : k ≠ p.1 := by
        rintro rfl
        exact hp (List.mem_map.mpr ⟨_, hm, rfl⟩)
      rw [if_neg hne]
      exact ih h hm

theorem nodup_remove (h : (t.map (·.1)).Nodup) (k : κ) : ((t.remove k).map (·.1)).Nodup :=
  h.sublist (List.filter_sublist.map _)

end Table

/-- Who is registered: the rosters, and the topic of each consumer. -/
structure Registry where
  topics : Table String (Roster ConsumerId)
  topicOf : ConsumerId → Option String
  nextId : ConsumerId

namespace Registry

/-- A new consumer has joined. -/
def join (r : Registry) (topic : String) : Registry where
  topics := r.topics.put topic (((r.topics.look topic).getD { topic }).enrol r.nextId)
  topicOf := Function.update r.topicOf r.nextId (some topic)
  nextId := r.nextId + 1

/-- The rosters without a consumer of this topic; an empty one is none. -/
def struck (topics : Table String (Roster ConsumerId)) (topic : String) (id : ConsumerId) :
    Table String (Roster ConsumerId) :=
  match topics.look topic with
  | none => topics
  | some roster =>
    if (roster.strike id).isEmpty then topics.remove topic else topics.put topic (roster.strike id)

/-- A consumer has left. -/
def leave (r : Registry) (id : ConsumerId) : Registry :=
  match r.topicOf id with
  | none => r
  | some topic => { r with
      topics := struck r.topics topic id
      topicOf := Function.update r.topicOf id none }

/-- The consumers for a topic among those who live. -/
def subscribers (live : Table ConsumerId String) (topic : String) : List ConsumerId :=
  (live.filter (·.2 = topic)).map (·.1)

/-- The roster that a topic has by them. -/
def rosterOf (live : Table ConsumerId String) (topic : String) : Option (Roster ConsumerId) :=
  if subscribers live topic = [] then none else some ⟨topic, subscribers live topic⟩

/-- A registry of just these consumers, in the order in which they joined. -/
structure Of (r : Registry) (live : Table ConsumerId String) : Prop where
  ascending : live.Pairwise fun p q => p.1 < q.1
  fresh : ∀ id ∈ live.map (·.1), id < r.nextId
  known : ∀ id, r.topicOf id = live.look id
  keys : (r.topics.map (·.1)).Nodup
  rosters : ∀ topic, r.topics.look topic = rosterOf live topic

variable {r : Registry} {live : Table ConsumerId String} {id : ConsumerId} {topic topic' : String}

theorem mem_subscribers : id ∈ subscribers live topic ↔ (id, topic) ∈ live := by
  simp [subscribers]

theorem subscribers_joined (live : Table ConsumerId String) (id : ConsumerId)
    (topic topic' : String) : subscribers (live ++ [(id, topic)]) topic' =
      subscribers live topic' ++ if topic = topic' then [id] else [] := by
  simp only [subscribers, List.filter_append, List.map_append]
  by_cases h : topic = topic' <;> simp [h]

theorem subscribers_left (live : Table ConsumerId String) (id : ConsumerId) (topic : String) :
    subscribers (live.remove id) topic = (subscribers live topic).filter (· != id) := by
  simp only [subscribers, Table.remove, List.filter_filter, List.filter_map]
  congr 1
  apply List.filter_congr
  intro p _
  rw [Bool.and_comm, Function.comp_apply]
  congr 1
  rw [Bool.eq_iff_iff, decide_eq_true_iff, bne_iff_ne]
  exact ne_comm

/-- One who lives has one topic. -/
theorem Of.mem_iff (h : r.Of live) : (id, topic) ∈ live ↔ live.look id = some topic :=
  Table.mem_iff_look (List.pairwise_map.mpr (h.ascending.imp Nat.ne_of_lt))

theorem of_nobody : Of ⟨[], fun _ => none, 0⟩ [] :=
  ⟨.nil, by simp, fun _ => rfl, .nil, fun _ => rfl⟩

theorem leave_none (hid : r.topicOf id = none) : r.leave id = r := by
  simp [leave, hid]

theorem leave_some (hid : r.topicOf id = some topic) : r.leave id =
    { r with
      topics := struck r.topics topic id
      topicOf := Function.update r.topicOf id none } := by
  simp [leave, hid]

theorem Of.join (h : r.Of live) (topic : String) :
    (r.join topic).Of (live ++ [(r.nextId, topic)]) := by
  have hnew : r.nextId ∉ live.map (·.1) := fun hm => Nat.lt_irrefl _ (h.fresh _ hm)
  constructor
  case ascending =>
    refine List.pairwise_append.mpr ⟨h.ascending, List.pairwise_singleton .., ?_⟩
    intro p hp q hq
    rw [List.mem_singleton.mp hq]
    exact h.fresh p.1 (List.mem_map_of_mem hp)
  case fresh =>
    intro id hm
    rw [List.map_append, List.mem_append] at hm
    rcases hm with hm | hm
    · exact Nat.lt_succ_of_lt (h.fresh id hm)
    · rw [List.mem_singleton.mp hm]
      exact Nat.lt_succ_self _
  case known =>
    intro id
    rw [Table.look_append_of_notMem hnew, ← h.known]
    exact Function.update_apply ..
  case keys => exact Table.nodup_put h.keys topic _
  case rosters =>
    intro topic'
    rw [Registry.join, Table.look_put, h.rosters, h.rosters, rosterOf, rosterOf, rosterOf,
      subscribers_joined]
    by_cases ht : topic' = topic
    · rw [ht]
      by_cases hs : subscribers live topic = [] <;> simp [hs, Roster.enrol]
    · simp [ht, Ne.symm ht]

theorem look_struck (topics : Table String (Roster ConsumerId)) (topic : String) (id : ConsumerId)
    (topic' : String) : (struck topics topic id).look topic' =
      if topic' = topic then ((topics.look topic).map (·.strike id)).filter fun r => !r.isEmpty
      else topics.look topic' := by
  unfold struck
  cases hb : topics.look topic with
  | none =>
    dsimp only
    split
    · rename_i ho
      rw [ho, hb]
      rfl
    · rfl
  | some roster =>
    dsimp only
    split
    · rename_i he
      simp [Table.look_remove, Option.filter, he]
    · rename_i he
      simp [Table.look_put, Option.filter, he]

theorem nodup_struck {topics : Table String (Roster ConsumerId)} (h : (topics.map (·.1)).Nodup)
    (topic : String) (id : ConsumerId) : ((struck topics topic id).map (·.1)).Nodup := by
  unfold struck
  split
  · exact h
  · split
    · exact Table.nodup_remove h topic
    · exact Table.nodup_put h topic _

theorem Of.leave (h : r.Of live) (id : ConsumerId) : (r.leave id).Of (live.remove id) := by
  cases hid : r.topicOf id with
  | none =>
    rw [leave_none hid]
    rw [h.known] at hid
    rw [Table.remove_of_notMem (Table.look_eq_none.mp hid)]
    exact h
  | some topic =>
    rw [leave_some hid]
    constructor
    case ascending => exact h.ascending.filter _
    case fresh =>
      intro other hm
      obtain ⟨p, hp, rfl⟩ := List.mem_map.mp hm
      exact h.fresh p.1 (List.mem_map_of_mem (List.mem_of_mem_filter hp))
    case known =>
      intro other
      rw [Table.look_remove, ← h.known]
      exact Function.update_apply ..
    case keys => exact nodup_struck h.keys topic id
    case rosters =>
      intro topic'
      rw [look_struck, h.rosters, h.rosters, rosterOf, rosterOf, rosterOf, subscribers_left]
      by_cases ht : topic' = topic
      · rw [ht]
        by_cases hs : subscribers live topic = []
        · simp [hs]
        · by_cases hf : (subscribers live topic).filter (· != id) = [] <;>
            simp [hs, hf, Roster.strike, Roster.isEmpty, Option.filter]
      · -- The consumer is for its own topic only.
        have hother : id ∉ subscribers live topic' := by
          rw [mem_subscribers, h.mem_iff, ← h.known, hid]
          simp [Ne.symm ht]
        have hsame : (subscribers live topic').filter (· != id) = subscribers live topic' := by
          refine List.filter_eq_self.mpr fun other hm => ?_
          simp only [bne_iff_ne, ne_eq]
          rintro rfl
          exact hother hm
        rw [if_neg ht, hsame]

theorem rosterOf_eq_none : rosterOf live topic = none ↔ topic ∉ live.map (·.2) := by
  have hnobody : subscribers live topic = [] ↔ topic ∉ live.map (·.2) := by
    simp [List.eq_nil_iff_forall_not_mem, mem_subscribers]
  unfold rosterOf
  split <;> simp_all

/-- As many rosters as topics of those who live. -/
theorem Of.length_topics (h : r.Of live) :
    r.topics.length = (live.map (·.2)).dedup.length := by
  have hkeys : (r.topics.map (·.1)).Perm (live.map (·.2)).dedup := by
    refine (List.perm_ext_iff_of_nodup h.keys (List.nodup_dedup _)).mpr fun topic => ?_
    rw [List.mem_dedup, ← not_iff_not, ← Table.look_eq_none, h.rosters, rosterOf_eq_none]
  rw [← hkeys.length_eq, List.length_map]

end Registry

end TopicQueue

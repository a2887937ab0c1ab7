import TopicQueue.Proofs.ByteSessions
import TopicQueue.Proofs.Registry
import TopicQueue.Proofs.TopicSessions

namespace TopicQueue

/-- The broker's steps, the consumers' and the sessions'; the others arm faults, or call the store
past the broker. -/
def Action.isPlain : Action → Bool
  | .fault .. | .store .. => false
  | _ => true

/-- The topic in which an action registers somebody. -/
def Action.joined? : Action → Option String
  | .subscribe topic _ | .session topic _ _ => some topic
  | _ => none

/-- The names that consumers and sessions have been given, and in which topics; the last comes
first. What has been given stays known when the consumer has been dropped. -/
structure Directory where
  callers : Table String String := []
  clients : Table String String := []
  /-- The names that consumers go by now. -/
  present : List String := []

namespace Directory

/-- The topic that an action concerns: its own, or that of the consumer or the session it names.
Some concern none: the store is closed for all topics, and a name may never have been given. What is
cancelled is a session only where no consumer goes by its name. -/
def topic? (d : Directory) : Action → Option String
  | .publish topic _ | .notify topic _ | .subscribe topic _ | .session topic _ _
  | .store _ topic _ => some topic
  | .next name _ | .settle name _ | .abort name | .drop name => d.callers.look name
  | .command name _ | .bytes name _ | .fail name _ | .hangUp name | .deafen name =>
    d.clients.look name
  | .cancel name =>
    if name ∈ d.present then d.callers.look name
    else (d.clients.look name).or (d.callers.look name)
  | .shutdown | .fault .. | .idle => none

def learn (d : Directory) : Action → Directory
  | .subscribe topic name =>
    { d with callers := (name, topic) :: d.callers, present := name :: d.present }
  | .drop name => { d with present := d.present.filter (· ≠ name) }
  | .session topic name _ => { d with clients := (name, topic) :: d.clients }
  | _ => d

/-- Every name has been given by one of these actions. -/
structure Known (actions : List Action) (d : Directory) : Prop where
  callers : ∀ e ∈ d.callers, .subscribe e.2 e.1 ∈ actions
  clients : ∀ e ∈ d.clients, ∃ chunked, .session e.2 e.1 chunked ∈ actions

variable {actions : List Action} {d : Directory} {a : Action}

theorem Known.empty : Known actions {} where
  callers _ he := nomatch he
  clients _ he := nomatch he

theorem Known.learn (h : Known actions d) (ha : a ∈ actions) : Known actions (d.learn a) := by
  cases a with
  | subscribe topic name => exact ⟨List.forall_mem_cons.mpr ⟨ha, h.callers⟩, h.clients⟩
  | session topic name chunked =>
    exact ⟨h.callers, List.forall_mem_cons.mpr ⟨⟨chunked, ha⟩, h.clients⟩⟩
  | _ => exact ⟨h.callers, h.clients⟩

/-- If a session of the topic goes by this name and a consumer of the topic has been given it, then
the consumer that was given it last is of the topic too. -/
def Apart (topic : String) (d : Directory) (name : String) : Prop :=
  d.clients.look name = some topic → (name, topic) ∈ d.callers →
    ∀ t, d.callers.look name = some t → t = topic

end Directory

/-- A step, or, if that concerns another topic, one that does nothing. -/
def Step.within (topic : String) (d : Directory) (t : Step) : Step :=
  match d.topic? t.action with
  | none => t
  | some other => if other = topic then t else { t with action := .idle }

theorem Step.within_cases (topic : String) (d : Directory) (t : Step) :
    (t.within topic d = t ∧ ∀ u, d.topic? t.action = some u → u = topic) ∨
    ∃ other, t.within topic d = { t with action := .idle } ∧ d.topic? t.action = some other ∧
      other ≠ topic := by
  cases hd : d.topic? t.action with
  | none => exact .inl ⟨by simp [Step.within, hd], by simp⟩
  | some other =>
    by_cases hother : other = topic
    · exact .inl ⟨by simp [Step.within, hd, hother], by simp [hother]⟩
    · exact .inr ⟨other, by simp [Step.within, hd, hother], rfl, hother⟩

/-- The same steps at the same times, but nothing is done where another topic is concerned. -/
def onlyTopic (topic : String) : Directory → List (Int64 × Step) → List (Int64 × Step)
  | _, [] => []
  | d, (time, t) :: later => (time, t.within topic d) :: onlyTopic topic (d.learn t.action) later

namespace Scene
open Broker

/-- Steps, deferred or not, each at its time. -/
def runTimed (s : Scene) (steps : List (Int64 × Step)) : Scene :=
  steps.foldl (fun s (time, t) => ((s.atTime time).step t).2) s

/-- Whoever goes by a name is of the topic that the name is known for; and if that is the one topic,
then the same goes by that name in the other table. -/
structure Listed {α : Type} (home : ConsumerId → String) (topic : String) (number : α → ConsumerId)
    (under : α → α) (topics : Table String String) (t t' : Table String α) : Prop where
  known : ∀ name u, topics.look name = some u → ∀ a, t.look name = some a → home (number a) = u
  own : ∀ name, topics.look name = some topic → t'.look name = (t.look name).map under
  unknown : ∀ name, topics.look name = none → t.look name = none ∧ t'.look name = none

section Listed

variable {α : Type} {home : ConsumerId → String} {topic u name : String} {number : α → ConsumerId}
  {under : α → α} {topics topics₁ : Table String String} {t t' t₁ t₁' : Table String α} {a : α}

theorem Listed.empty : Listed home topic number under [] [] [] where
  known _ _ hu := nomatch hu
  own _ hu := nomatch hu
  unknown _ _ := ⟨rfl, rfl⟩

theorem Listed.same (h : Listed home topic number under topics t t')
    (hname : ∀ u, topics.look name = some u → u = topic) :
    (t.look name = none ∧ t'.look name = none) ∨
      ∃ a, t.look name = some a ∧ t'.look name = some (under a) ∧ home (number a) = topic ∧
        topics.look name = some topic := by
  cases hlook : topics.look name with
  | none => exact .inl (h.unknown name hlook)
  | some u =>
    obtain rfl := hname u hlook
    have hown := h.own name hlook
    cases ha : t.look name with
    | none => exact .inl ⟨rfl, by rw [hown, ha]; rfl⟩
    | some a => exact .inr ⟨a, rfl, by rw [hown, ha]; rfl, h.known name u hlook a ha, rfl⟩

theorem Listed.differs (h : Listed home topic number under topics t t')
    (hname : ∀ u, topics.look name = some u → u ≠ topic) (ha : t.look name = some a) :
    home (number a) ≠ topic ∧ topics.look name = some (home (number a)) := by
  cases hlook : topics.look name with
  | none =>
    rw [(h.unknown name hlook).1] at ha
    cases ha
  | some u =>
    rw [h.known name u hlook a ha]
    exact ⟨hname u hlook, rfl⟩

theorem Listed.found (h : Listed home topic number under topics t t') (ha : t.look name = some a)
    (hid : home (number a) = topic) : t'.look name = some (under a) := by
  cases hlook : topics.look name with
  | none =>
    rw [(h.unknown name hlook).1] at ha
    cases ha
  | some u =>
    obtain rfl : u = topic := (h.known name u hlook a ha).symm.trans hid
    rw [h.own name hlook, ha]
    rfl

/-- A name is given to somebody, or to nobody; where that is of another topic, the other table stays
as it is. -/
theorem Listed.write (h : Listed home topic number under topics t t') (v : Option α)
    (htopics : ∀ n, topics₁.look n = if n = name then some u else topics.look n)
    (ht : ∀ n, t₁.look n = if n = name then v else t.look n)
    (ht' : ∀ n, t₁'.look n = if n = name ∧ u = topic then v.map under else t'.look n)
    (hv : ∀ a, v = some a → home (number a) = u) :
    Listed home topic number under topics₁ t₁ t₁' where
  known n w hw a ha := by
    rw [htopics] at hw
    rw [ht] at ha
    split at hw <;> rename_i hn
    · cases hw
      exact hv a (by rwa [if_pos hn] at ha)
    · exact h.known n w hw a (by rwa [if_neg hn] at ha)
  own n hn := by
    rw [htopics] at hn
    rw [ht, ht']
    split at hn <;> rename_i hname
    · cases hn
      rw [if_pos ⟨hname, rfl⟩, if_pos hname]
    · rw [if_neg fun hboth => hname hboth.1, if_neg hname]
      exact h.own n hn
  unknown n hn := by
    rw [htopics] at hn
    rw [ht, ht']
    split at hn <;> rename_i hname
    · cases hn
    · rw [if_neg hname, if_neg fun hboth => hname hboth.1]
      exact h.unknown n hn

theorem Listed.put (h : Listed home topic number under topics t t') (name : String)
    (ha : home (number a) = topic) :
    Listed home topic number under ((name, topic) :: topics) (t.put name a)
      (t'.put name (under a)) :=
  h.write (some a) (fun _ => rfl) (fun n => Table.look_put ..)
    (fun n => by simp [Table.look_put]) fun _ hv => by cases hv; exact ha

theorem Listed.put_other (h : Listed home topic number under topics t t') (name : String)
    (ha : home (number a) = u) (hne : u ≠ topic) :
    Listed home topic number under ((name, u) :: topics) (t.put name a) t' :=
  h.write (some a) (fun _ => rfl) (fun n => Table.look_put ..)
    (fun n => by simp [hne]) fun _ hv => by cases hv; exact ha

theorem look_known (hname : topics.look name = some u) (n : String) :
    topics.look n = if n = name then some u else topics.look n := by
  split
  · rename_i hn
    rw [hn, hname]
  · rfl

theorem Listed.change (h : Listed home topic number under topics t t')
    (hname : topics.look name = some topic) (ha : home (number a) = topic) :
    Listed home topic number under topics (t.put name a) (t'.put name (under a)) :=
  h.write (some a) (look_known hname) (fun n => Table.look_put ..)
    (fun n => by simp [Table.look_put]) fun _ hv => by cases hv; exact ha

theorem Listed.change_other (h : Listed home topic number under topics t t')
    (hname : topics.look name = some (home (number a))) (hne : home (number a) ≠ topic) :
    Listed home topic number under topics (t.put name a) t' :=
  h.write (some a) (look_known hname) (fun n => Table.look_put ..)
    (fun n => by simp [hne]) fun _ hv => by cases hv; rfl

theorem Listed.remove (h : Listed home topic number under topics t t')
    (hname : topics.look name = some topic) :
    Listed home topic number under topics (t.remove name) (t'.remove name) :=
  h.write none (look_known hname) (fun n => Table.look_remove ..)
    (fun n => by simp [Table.look_remove]) fun _ hv => nomatch hv

theorem Listed.remove_other (h : Listed home topic number under topics t t')
    (hname : topics.look name = some u) (hne : u ≠ topic) :
    Listed home topic number under topics (t.remove name) t' :=
  h.write none (look_known hname) (fun n => Table.look_remove ..)
    (fun n => by simp [hne]) fun _ hv => nomatch hv

end Listed

/-- Who goes by a name after an action. -/
theorem named_perform (s : Scene) {a : Action} (ha : a.isPlain = true) (name : String) :
    ((s.perform a).2.callers.look name).isSome ↔
      (∃ t, a = .subscribe t name) ∨ ((s.callers.look name).isSome ∧ a ≠ .drop name) := by
  cases a with
  | subscribe t n =>
    by_cases hn : name = n
    · simp [perform, hn]
    · simp [perform, Table.look_put, hn, Ne.symm hn]
  | drop n =>
    simp only [perform]
    split
    · rename_i hl
      by_cases hn : name = n
      · simp [hn, hl]
      · simp [Ne.symm hn]
    · by_cases hn : name = n
      · simp [hn]
      · simp [Table.look_remove, hn, Ne.symm hn]
  | next n cancelled =>
    simp only [perform]
    split
    · simp
    · rename_i caller hl
      split
      · simp
      · by_cases hn : name = n
        · simp [hn, hl]
        · simp [Table.look_put, hn]
  | cancel n =>
    simp only [perform]
    split
    · split <;> simp [setBroker]
    · split <;> simp
  | publish | notify | shutdown | session | idle => simp [perform, setBroker]
  | settle | abort | deafen => simp only [perform]; split <;> simp [setBroker]
  | command | bytes | fail | hangUp =>
    simp only [perform, send]
    split
    · simp
    · split <;> (try split) <;> simp
  | fault | store => cases ha

/-- What the directory knows of the names that consumers go by. Where only the topic's steps are
done, somebody may go by a name that has been given away since. -/
structure Named (topic : String) (d : Directory) (s s' : Scene) : Prop where
  present : ∀ name, name ∈ d.present ↔ (s.callers.look name).isSome
  former : ∀ name, (s'.callers.look name).isSome → (name, topic) ∈ d.callers

theorem Named.perform {topic : String} {d : Directory} {s s' : Scene} (h : Named topic d s s')
    {a a' : Action} (ha : a.isPlain = true) (ha' : a'.isPlain = true)
    (hsame : ∀ t name, a' = .subscribe t name → a = .subscribe topic name) :
    Named topic (d.learn a) (s.perform a).2 (s'.perform a').2 where
  present name := by
    rw [named_perform s ha, ← h.present]
    cases a with
    | subscribe t n => simp [Directory.learn, @eq_comm _ name n]
    | drop n => simp [Directory.learn, @eq_comm _ name n]
    | _ => simp [Directory.learn]
  former name hname := by
    rw [named_perform s' ha'] at hname
    obtain ⟨t, ht⟩ | ⟨hname, -⟩ := hname
    · rw [hsame t name ht]
      exact List.mem_cons_self
    · have hformer := h.former name hname
      cases a with
      | subscribe t n => exact List.mem_cons_of_mem _ hformer
      | _ => exact hformer

theorem step_callers (s : Scene) (t : Step) :
    (s.step t).2.callers = (s.perform t.action).2.callers := by
  simp only [step]
  split <;> rfl

theorem Named.step {topic : String} {d : Directory} {s s' : Scene} (h : Named topic d s s')
    {t : Step} (ha : t.action.isPlain = true) :
    Named topic (d.learn t.action) (s.step t).2 (s'.step (t.within topic d)).2 := by
  have hleft : Named topic (d.learn t.action) (s.perform t.action).2
      (s'.perform (t.within topic d).action).2 := by
    rcases t.within_cases topic d with ⟨hwithin, hown⟩ | ⟨other, hwithin, -, -⟩
    · rw [hwithin]
      refine h.perform ha ha fun u name hu => ?_
      rw [hu] at hown ⊢
      rw [hown u rfl]
    · rw [hwithin]
      exact h.perform ha rfl fun u name hu => nomatch hu
  constructor
  · rw [step_callers]
    exact hleft.present
  · rw [step_callers]
    exact hleft.former

/-- The second scene has of one topic what the first has. -/
structure Excerpt (home : ConsumerId → String) (topic : String) (count : Nat) (d : Directory)
    (s s' : Scene) : Prop where
  service : Service.Excerpt home topic count s.service s'.service
  callers : Listed home topic Caller.id (fun c => { c with id := rank home topic c.id }) d.callers
    s.callers s'.callers
  clients : Listed home topic Client.id (fun c => { c with id := rank home topic c.id }) d.clients
    s.clients s'.clients

namespace Excerpt

variable {home : ConsumerId → String} {topic : String} {count : Nat} {d : Directory} {s s' : Scene}
  {b b' : Broker} {id : ConsumerId}

theorem broker (h : Excerpt home topic count d s s') :
    Broker.Excerpt home topic count s.broker s'.broker := h.service.broker

theorem setBroker (h : Excerpt home topic count d s s')
    (hb : Broker.Excerpt home topic count b b') :
    Excerpt home topic count d (s.setBroker b) (s'.setBroker b') :=
  ⟨h.service.setBroker hb, h.callers, h.clients⟩

theorem setBroker_other (h : Excerpt home topic count d s s')
    (hb : Broker.Excerpt home topic count b s'.broker) :
    Excerpt home topic count d (s.setBroker b) s' :=
  ⟨h.service.setBroker hb, h.callers, h.clients⟩

theorem pending (h : Excerpt home topic count d s s') (hid : home id = topic) :
    s'.pending (rank home topic id) = s.pending id := by
  unfold Scene.pending
  rw [h.broker.consumers id hid]

theorem send (h : Excerpt home topic count d s s') {client : Client}
    (hid : home client.id = topic) (change : Inlet → Inlet) :
    (s'.send { client with id := rank home topic client.id } change).1 =
      (s.send client change).1 ∧
    Excerpt home topic count d (s.send client change).2
      (s'.send { client with id := rank home topic client.id } change).2 := by
  unfold Scene.send
  rw [h.service.sessions client.id hid]
  split
  · exact ⟨rfl, h⟩
  · exact ⟨rfl, h.service.feed hid change, h.callers, h.clients⟩

/-- What is cancelled is a consumer in both scenes, or in neither; in the second nobody is left who
has lost the name since. -/
theorem cancelled (h : Excerpt home topic count d s s') (hnamed : Named topic d s s')
    {name : String} (hapart : d.Apart topic name)
    (hown : ∀ u, d.topic? (.cancel name) = some u → u = topic) :
    (s.callers.look name = none ∧ s'.callers.look name = none ∧
      ∀ u, d.clients.look name = some u → u = topic) ∨
    ∃ caller, s.callers.look name = some caller ∧
      s'.callers.look name = some { caller with id := rank home topic caller.id } ∧
      home caller.id = topic := by
  simp only [Directory.topic?] at hown
  by_cases hpresent : name ∈ d.present
  · rw [if_pos hpresent] at hown
    have hsome := (hnamed.present name).mp hpresent
    rcases h.callers.same hown with ⟨hl, -⟩ | ⟨caller, hl, hl', hid, -⟩
    · rw [hl] at hsome
      cases hsome
    · exact .inr ⟨caller, hl, hl', hid⟩
  · rw [if_neg hpresent] at hown
    have hclient : ∀ u, d.clients.look name = some u → u = topic :=
      fun u hu => hown u (by rw [hu]; rfl)
    have hl : s.callers.look name = none := by
      rwa [hnamed.present, Option.not_isSome_iff_eq_none] at hpresent
    refine .inl ⟨hl, ?_, hclient⟩
    by_contra hl'
    have hformer := hnamed.former name (Option.isSome_iff_ne_none.mpr hl')
    obtain ⟨t, ht⟩ := Table.look_of_mem hformer
    have htopic : t = topic := by
      cases hc : d.clients.look name with
      | none => exact hown t (by rw [hc, ht]; rfl)
      | some u =>
        rw [hclient u hc] at hc
        exact hapart hc hformer t ht
    rw [h.callers.own name (htopic ▸ ht), hl] at hl'
    exact hl' rfl

/-- The same answer, and an excerpt again. -/
def Agree (home : ConsumerId → String) (topic : String) (count : Nat) (d : Directory)
    (r r' : Answer × Scene) : Prop :=
  r'.1 = r.1 ∧ Excerpt home topic count d r.2 r'.2

theorem perform_subscribe (h : Excerpt home topic count d s s') (hhome : home count = topic)
    (name : String) : Agree home topic (count + 1) (d.learn (.subscribe topic name))
      (s.perform (.subscribe topic name)) (s'.perform (.subscribe topic name)) := by
  have hput := h.callers.put name (a := { id := count }) hhome
  rw [← h.broker.nextId'] at hput
  obtain rfl := h.broker.nextId
  exact ⟨rfl, h.service.setBroker (h.broker.subscribe hhome), hput, h.clients⟩

theorem perform_next (h : Excerpt home topic count d s s') {name : String}
    (hown : ∀ u, d.callers.look name = some u → u = topic) (cancelled : Bool) :
    Agree home topic count d (s.perform (.next name cancelled))
      (s'.perform (.next name cancelled)) := by
  rcases h.callers.same hown with ⟨hl, hl'⟩ | ⟨caller, hl, hl', hid, hname⟩
  · simp only [Scene.perform, hl, hl']
    exact ⟨rfl, h⟩
  · simp only [Scene.perform, hl, hl', h.pending hid]
    split
    · exact ⟨rfl, h⟩
    · have hasked := h.callers.change (a := { caller with asked := true }) hname hid
      exact ⟨rfl, h.service.setBroker (h.broker.ask hid cancelled), hasked, h.clients⟩

theorem perform_settle (h : Excerpt home topic count d s s') {name : String}
    (hown : ∀ u, d.callers.look name = some u → u = topic) (verdict : Verdict) :
    Agree home topic count d (s.perform (.settle name verdict))
      (s'.perform (.settle name verdict)) := by
  rcases h.callers.same hown with ⟨hl, hl'⟩ | ⟨caller, hl, hl', hid, -⟩
  · simp only [Scene.perform, hl, hl']
    exact ⟨rfl, h⟩
  · obtain ⟨r, b, b', he, he', hb⟩ := (h.broker.settle hid verdict).cases
    simp only [Scene.perform, hl, hl', he, he']
    exact ⟨rfl, h.setBroker hb⟩

theorem perform_cancel (h : Excerpt home topic count d s s') (hnamed : Named topic d s s')
    {name : String} (hapart : d.Apart topic name)
    (hown : ∀ u, d.topic? (.cancel name) = some u → u = topic) :
    Agree home topic count d (s.perform (.cancel name)) (s'.perform (.cancel name)) := by
  rcases h.cancelled hnamed hapart hown with ⟨hl, hl', hclient⟩ | ⟨caller, hl, hl', hid⟩
  · rcases h.clients.same hclient with ⟨hc, hc'⟩ | ⟨client, hc, hc', hid, -⟩
    · simp only [Scene.perform, hl, hl', hc, hc']
      exact ⟨rfl, h⟩
    · simp only [Scene.perform, hl, hl', hc, hc']
      exact ⟨rfl, h.service.cancelSession hid, h.callers, h.clients⟩
  · simp only [Scene.perform, hl, hl']
    split
    · exact ⟨rfl, h.setBroker (h.broker.cancel hid)⟩
    · exact ⟨rfl, h⟩

theorem perform_abort (h : Excerpt home topic count d s s') {name : String}
    (hown : ∀ u, d.callers.look name = some u → u = topic) :
    Agree home topic count d (s.perform (.abort name)) (s'.perform (.abort name)) := by
  rcases h.callers.same hown with ⟨hl, hl'⟩ | ⟨caller, hl, hl', hid, -⟩
  · simp only [Scene.perform, hl, hl']
    exact ⟨rfl, h⟩
  · simp only [Scene.perform, hl, hl', h.pending hid]
    exact ⟨rfl, h.setBroker (h.broker.abandon hid)⟩

theorem perform_drop (h : Excerpt home topic count d s s') {name : String}
    (hown : ∀ u, d.callers.look name = some u → u = topic) :
    Agree home topic count (d.learn (.drop name)) (s.perform (.drop name))
      (s'.perform (.drop name)) := by
  rcases h.callers.same hown with ⟨hl, hl'⟩ | ⟨caller, hl, hl', hid, hname⟩
  · simp only [Scene.perform, hl, hl']
    exact ⟨rfl, h.service, h.callers, h.clients⟩
  · simp only [Scene.perform, hl, hl']
    exact ⟨rfl, h.service.setBroker ((h.broker.abandon hid).release hid),
      h.callers.remove hname, h.clients⟩

theorem perform_session (h : Excerpt home topic count d s s') (hhome : home count = topic)
    (name : String) (chunked : Bool) :
    Agree home topic (count + 1) (d.learn (.session topic name chunked))
      (s.perform (.session topic name chunked)) (s'.perform (.session topic name chunked)) := by
  have hput := h.clients.put name (a := { id := count, chunked }) hhome
  rw [← h.broker.nextId'] at hput
  obtain rfl := h.broker.nextId
  exact ⟨rfl, h.service.openSession hhome _ none, h.callers, hput⟩

theorem perform_input (h : Excerpt home topic count d s s') {a : Action} {name : String}
    (ha : a.input? = some name) (hown : ∀ u, d.clients.look name = some u → u = topic) :
    Agree home topic count d (s.perform a) (s'.perform a) := by
  cases a with
  | command | bytes | fail =>
    cases ha
    rcases h.clients.same hown with ⟨hl, hl'⟩ | ⟨client, hl, hl', hid, -⟩
    · simp only [Scene.perform, hl, hl']
      exact ⟨rfl, h⟩
    · simp only [Scene.perform, hl, hl']
      split <;> first | exact ⟨rfl, h⟩ | exact h.send hid _
  | hangUp =>
    cases ha
    rcases h.clients.same hown with ⟨hl, hl'⟩ | ⟨client, hl, hl', hid, hname⟩
    · simp only [Scene.perform, hl, hl']
      exact ⟨rfl, h⟩
    · simp only [Scene.perform, hl, hl']
      split
      · exact ⟨rfl, h⟩
      · have hleft := h.clients.change (a := { client with hungUp := true }) hname hid
        exact ⟨rfl, h.service.feed hid _, h.callers, hleft⟩
  | _ => cases ha

theorem perform_deafen (h : Excerpt home topic count d s s') {name : String}
    (hown : ∀ u, d.clients.look name = some u → u = topic) :
    Agree home topic count d (s.perform (.deafen name)) (s'.perform (.deafen name)) := by
  rcases h.clients.same hown with ⟨hl, hl'⟩ | ⟨client, hl, hl', hid, -⟩
  · simp only [Scene.perform, hl, hl']
    exact ⟨rfl, h⟩
  · simp only [Scene.perform, hl, hl']
    exact ⟨rfl, h.service.deafen hid, h.callers, h.clients⟩

/-- An action that concerns the topic, or none, does the same in both. -/
theorem perform (h : Excerpt home topic count d s s') (hnamed : Named topic d s s') {a : Action}
    (ha : a.isPlain = true) (hjoin : ∀ t, a.joined? = some t → home count = t)
    (hapart : ∀ name, a = .cancel name → d.Apart topic name)
    (hown : ∀ u, d.topic? a = some u → u = topic) :
    Agree home topic (count + a.joined?.toList.length) (d.learn a) (s.perform a)
      (s'.perform a) := by
  cases a with
  | publish t payload =>
    obtain rfl := hown t rfl
    obtain ⟨r, b, b', he, he', hb⟩ := (h.broker.publish payload).cases
    simp only [Scene.perform, he, he']
    exact ⟨rfl, h.setBroker hb⟩
  | notify t reason =>
    obtain rfl := hown t rfl
    exact ⟨rfl, h.setBroker (h.broker.notify reason)⟩
  | shutdown =>
    obtain ⟨r, b, b', he, he', hb⟩ := h.broker.shutdown.cases
    simp only [Scene.perform, he, he']
    exact ⟨rfl, h.setBroker hb⟩
  | subscribe t name =>
    obtain rfl := hown t rfl
    exact h.perform_subscribe (hjoin t rfl) name
  | next name cancelled => exact h.perform_next hown cancelled
  | settle name verdict => exact h.perform_settle hown verdict
  | cancel name => exact h.perform_cancel hnamed (hapart name rfl) hown
  | abort name => exact h.perform_abort hown
  | drop name => exact h.perform_drop hown
  | session t name chunked =>
    obtain rfl := hown t rfl
    exact h.perform_session (hjoin t rfl) name chunked
  | command | bytes | fail | hangUp => exact h.perform_input rfl hown
  | deafen name => exact h.perform_deafen hown
  | idle => exact ⟨rfl, h⟩
  | fault | store => cases ha

/-- A caller who is told to cancel is of another topic, and so is a session. -/
theorem cancelled_other (h : Excerpt home topic count d s s') (hnamed : Named topic d s s')
    {name : String} (hname : ∀ u, d.topic? (.cancel name) = some u → u ≠ topic) :
    (∀ caller, s.callers.look name = some caller → home caller.id ≠ topic) ∧
    (s.callers.look name = none → ∀ client, s.clients.look name = some client →
      home client.id ≠ topic) := by
  simp only [Directory.topic?] at hname
  constructor
  · intro caller hl
    rw [if_pos ((hnamed.present name).mpr (by rw [hl]; rfl))] at hname
    exact (h.callers.differs hname hl).1
  · intro hl client hc
    rw [if_neg (by simp [hnamed.present, hl])] at hname
    exact (h.clients.differs (fun u hu => hname u (by rw [hu]; rfl)) hc).1

/-- An action that concerns another topic does nothing here. -/
theorem performed_other (h : Excerpt home topic count d s s') (hnamed : Named topic d s s')
    {a : Action} {left : Scene} (hp : Performed s a left) (ha : a.isPlain = true)
    (hjoin : ∀ t, a.joined? = some t → home count = t)
    {other : String} (hother : d.topic? a = some other) (hne : other ≠ topic) :
    Excerpt home topic (count + a.joined?.toList.length) (d.learn a) left s' := by
  have hname : ∀ u, d.topic? a = some u → u ≠ topic := by
    intro u hu
    rw [hother] at hu
    cases hu
    exact hne
  cases hp with
  | published t payload => exact h.setBroker_other (h.broker.publish_other (hname t rfl) payload)
  | notified t reason => exact h.setBroker_other (h.broker.notify_other (hname t rfl) reason)
  | subscribed t name =>
    have hhome := hjoin t rfl
    have hput := h.callers.put_other name (a := { id := count }) hhome (hname t rfl)
    obtain rfl := h.broker.nextId
    exact ⟨h.service.setBroker (h.broker.subscribe_other hhome (hname t rfl)), hput, h.clients⟩
  | @asked name caller cancelled hl =>
    obtain ⟨hid, hknown⟩ := h.callers.differs hname hl
    have hasked := h.callers.change_other (a := { caller with asked := true }) hknown hid
    exact ⟨h.service.setBroker (h.broker.ask_other hid cancelled), hasked, h.clients⟩
  | settled verdict hl =>
    exact h.setBroker_other (h.broker.settle_other (h.callers.differs hname hl).1 verdict)
  | cancelled hl =>
    exact h.setBroker_other (h.broker.cancel_other ((h.cancelled_other hnamed hname).1 _ hl))
  | stopped hfree hc =>
    have hid := (h.cancelled_other hnamed hname).2 hfree _ hc
    exact ⟨h.service.cancelSession_other hid, h.callers, h.clients⟩
  | aborted hl => exact h.setBroker_other (h.broker.abandon_other (h.callers.differs hname hl).1)
  | dropped hl =>
    obtain ⟨hid, hknown⟩ := h.callers.differs hname hl
    exact ⟨h.service.setBroker ((h.broker.abandon_other hid).release_other hid),
      h.callers.remove_other hknown hid, h.clients⟩
  | opened t name chunked =>
    have hhome := hjoin t rfl
    have hput := h.clients.put_other name (a := { id := count, chunked }) hhome (hname t rfl)
    obtain rfl := h.broker.nextId
    exact ⟨h.service.openSession_other hhome (hname t rfl) _ none, h.callers, hput⟩
  | @fed a name client change hinput hc =>
    cases a with
    | command | bytes | fail | hangUp =>
      cases hinput
      exact ⟨h.service.feed_other (h.clients.differs hname hc).1 change, h.callers, h.clients⟩
    | _ => cases hinput
  | @hungUp name client hc =>
    obtain ⟨hid, hknown⟩ := h.clients.differs hname hc
    have hleft := h.clients.change_other (a := { client with hungUp := true }) hknown hid
    exact ⟨h.service.feed_other hid _, h.callers, hleft⟩
  | deafened hc =>
    exact ⟨h.service.deafen_other (h.clients.differs hname hc).1, h.callers, h.clients⟩
  | shutDown => cases hother
  | armed | stored => cases ha
  | nothing hrefused =>
    cases a with
    | subscribe | session => cases hrefused
    | drop => exact ⟨h.service, h.callers, h.clients⟩
    | _ => exact h

theorem atTime (h : Excerpt home topic count d s s') (t : Int64) :
    Excerpt home topic count d (s.atTime t) (s'.atTime t) :=
  h.setBroker { h.broker with clock := rfl }

theorem finish (h : Excerpt home topic count d s s') (defer : Bool) :
    Excerpt home topic count d (if defer then s else { s with service := s.service.drain })
      (if defer then s' else { s' with service := s'.service.drain }) := by
  split
  · exact h
  · exact ⟨h.service.drain, h.callers, h.clients⟩

/-- A step of the topic does the same in both; a step of another topic may as well not be done. -/
theorem step (h : Excerpt home topic count d s s') (hnamed : Named topic d s s') {t : Step}
    (ha : t.action.isPlain = true) (hjoin : ∀ u, t.action.joined? = some u → home count = u)
    (hapart : ∀ name, t.action = .cancel name → d.Apart topic name) :
    Excerpt home topic (count + t.action.joined?.toList.length) (d.learn t.action) (s.step t).2
      (s'.step (t.within topic d)).2 ∧
    (t.within topic d = t → (s'.step t).1 = (s.step t).1) := by
  rcases t.within_cases topic d with ⟨hwithin, hown⟩ | ⟨other, hwithin, hd, hother⟩
  · obtain ⟨hanswer, hleft⟩ := h.perform hnamed ha hjoin hapart hown
    rw [hwithin]
    exact ⟨hleft.finish t.defer, fun _ => hanswer⟩
  · rw [hwithin]
    have hleft := h.performed_other hnamed (s.performed t.action) ha hjoin hd hother
    refine ⟨hleft.finish t.defer, fun he => ?_⟩
    have hidle : Action.idle = t.action := congrArg Step.action he
    rw [← hidle] at hd
    cases hd

end Excerpt

/-- The topics in which steps register somebody, in the order of registration. -/
def joined (steps : List (Int64 × Step)) : List String := steps.filterMap (·.2.action.joined?)

/-- The topic for which a consumer is registered in a run of these steps. -/
def homeIn (steps : List (Int64 × Step)) (id : ConsumerId) : String := (joined steps)[id]?.getD ""

/-- A name that is cancelled, and that a session of the topic and a consumer of the topic have both
been given, has been given to no consumer of another topic. What is cancelled is a session only
where no consumer goes by its name; when the consumer that took the name over has been dropped, then
without the other topic the one that had it before still goes by it. -/
def CancelsApart (topic : String) (actions : List Action) : Prop :=
  ∀ name, .cancel name ∈ actions → ∀ u chunked, .session topic name chunked ∈ actions →
    .subscribe topic name ∈ actions → .subscribe u name ∈ actions → u = topic

theorem CancelsApart.apart {topic : String} {actions : List Action}
    (h : CancelsApart topic actions) {d : Directory} (hknown : d.Known actions) {name : String}
    (hname : .cancel name ∈ actions) : d.Apart topic name := by
  intro hclient hcaller t ht
  obtain ⟨chunked, hsession⟩ := hknown.clients _ (Table.mem_of_look hclient)
  exact h name hname t chunked hsession (hknown.callers _ hcaller)
    (hknown.callers _ (Table.mem_of_look ht))

/-- A run goes on, and goes on the same without other topics. -/
theorem Excerpt.run {home : ConsumerId → String} {topic : String} {count : Nat} {d : Directory}
    {s s' : Scene} {actions : List Action} {steps : List (Int64 × Step)}
    (h : Excerpt home topic count d s s') (hnamed : Named topic d s s') (hknown : d.Known actions)
    (hsteps : ∀ e ∈ steps, e.2.action ∈ actions ∧ e.2.action.isPlain = true)
    (hapart : CancelsApart topic actions)
    (hhome : ∀ k t, (joined steps)[k]? = some t → home (count + k) = t) (n : Nat) :
    (∃ count' d', Excerpt home topic count' d' (s.runTimed (steps.take n))
      (s'.runTimed ((onlyTopic topic d steps).take n))) ∧
    ∀ time t, steps[n]? = some (time, t) → (onlyTopic topic d steps)[n]? = some (time, t) →
      (((s'.runTimed ((onlyTopic topic d steps).take n)).atTime time).step t).1 =
        (((s.runTimed (steps.take n)).atTime time).step t).1 := by
  induction steps generalizing count d s s' n with
  | nil => exact ⟨⟨count, d, by simpa [onlyTopic, runTimed] using h⟩, by simp⟩
  | cons e later ih =>
    obtain ⟨time, t⟩ := e
    obtain ⟨⟨hmem, hplain⟩, hlater⟩ := List.forall_mem_cons.mp hsteps
    have hjoin : ∀ u, t.action.joined? = some u → home count = u := by
      intro u hu
      exact hhome 0 u (by simp [joined, hu])
    have hnamed' : Named topic d (s.atTime time) (s'.atTime time) := ⟨hnamed.present, hnamed.former⟩
    obtain ⟨hleft, hanswer⟩ := (h.atTime time).step hnamed' hplain hjoin fun name hname =>
      hapart.apart hknown (hname ▸ hmem)
    cases n with
    | zero =>
      refine ⟨⟨count, d, h⟩, fun time' t' ht ht' => ?_⟩
      cases ht
      have hwithin : (time, t.within topic d) = (time, t) := Option.some.inj ht'
      exact hanswer (congrArg Prod.snd hwithin)
    | succ n =>
      refine ih hleft (hnamed'.step hplain) (hknown.learn hmem) hlater (fun k u hu => ?_) n
      cases hjoined : t.action.joined? with
      | none => exact hhome k u (by simpa [joined, hjoined] using hu)
      | some v =>
        have hcount : count + (some v).toList.length + k = count + (k + 1) := by
          rw [Option.toList_some, List.length_singleton]
          omega
        rw [hcount]
        exact hhome (k + 1) u (by simpa [joined, hjoined] using hu)

/-- One topic is the same in both scenes, but for the numbers of its consumers. -/
structure SameTopic (home : ConsumerId → String) (topic : String) (s s' : Scene) : Prop where
  closed : s'.broker.store.closed = s.broker.store.closed
  /-- The entries as they are stored, with the times of their arrival. -/
  entries : (s'.broker.store.tree topic).map (·.2) = (s.broker.store.tree topic).map (·.2)
  /-- The claim, which is always on the first entry. -/
  claimed : (s'.broker.store.claim? topic).isSome = (s.broker.store.claim? topic).isSome
  /-- Whoever is registered, in this order. -/
  registered : (s'.broker.roster? topic).map (·.members) =
    (s.broker.roster? topic).map (·.members.map (rank home topic))
  /-- What each consumer waits for and holds. -/
  consumers : ∀ id, home id = topic →
    s'.broker.consumer? (rank home topic id) = s.broker.consumer? id
  /-- What each session is at, and what it has not read yet. -/
  sessions : ∀ id, home id = topic →
    s'.service.sessions.look (rank home topic id) = s.service.sessions.look id
  /-- What consumers and sessions have been given, in this order. -/
  outputs : s'.broker.outputs =
    (s.broker.outputs.filter (home ·.1 = topic)).map fun o => (rank home topic o.1, o.2)
  /-- Whoever goes by a name. -/
  callers : ∀ name caller, s.callers.look name = some caller → home caller.id = topic →
    s'.callers.look name = some { caller with id := rank home topic caller.id }
  clients : ∀ name client, s.clients.look name = some client → home client.id = topic →
    s'.clients.look name = some { client with id := rank home topic client.id }

theorem Excerpt.sameTopic {home : ConsumerId → String} {topic : String} {count : Nat}
    {d : Directory} {s s' : Scene} (h : Excerpt home topic count d s s') :
    SameTopic home topic s s' where
  closed := h.broker.store.closed
  entries := h.broker.store.values
  claimed := h.broker.store.claimed
  registered := by
    rw [h.broker.roster, Option.map_map]
    rfl
  consumers := h.broker.consumers
  sessions := h.service.sessions
  outputs := h.broker.outputs
  callers := fun name caller hl hid => h.callers.found hl hid
  clients := fun name client hl hid => h.clients.found hl hid

theorem excerpt_start (flushOnInsert : Bool) (home : ConsumerId → String) (topic : String) :
    Excerpt home topic 0 {} (start flushOnInsert) (start flushOnInsert) where
  service := {
    broker := {
      store := ⟨Store.sound_empty .., Store.sound_empty .., rfl, rfl, rfl⟩
      unarmed := fun _ => rfl
      unarmed' := fun _ => rfl
      clock := rfl
      consumers := fun _ _ => rfl
      roster := rfl
      ready := rfl
      outputs := rfl
      nextId := rfl
      nextId' := (Nat.count_zero _).symm
      homes := fun _ _ hc => nomatch hc
      members := fun _ _ hr => nomatch hr }
    sessions := fun _ _ => rfl }
  callers := .empty
  clients := .empty

theorem named_start (flushOnInsert : Bool) (topic : String) :
    Named topic {} (start flushOnInsert) (start flushOnInsert) where
  present _ := ⟨fun h => (nomatch h), fun h => (nomatch h)⟩
  former _ h := nomatch h

/-- Topics do not meet, whatever their names are. Take a run of steps, deferred or not, and the same
run with nothing done where another topic is concerned: after any number of steps the topic is the
same in both, and if the next step is done in both, it answers the same. -/
theorem topics_isolated (flushOnInsert : Bool) (topic : String) (steps : List (Int64 × Step))
    (hplain : ∀ e ∈ steps, e.2.action.isPlain = true)
    (hcancels : CancelsApart topic (steps.map (·.2.action))) (n : Nat) :
    let s := (start flushOnInsert).runTimed (steps.take n)
    let s' := (start flushOnInsert).runTimed ((onlyTopic topic {} steps).take n)
    SameTopic (homeIn steps) topic s s' ∧
    ∀ time t, steps[n]? = some (time, t) → (onlyTopic topic {} steps)[n]? = some (time, t) →
      ((s'.atTime time).step t).1 = ((s.atTime time).step t).1 := by
  have hsteps : ∀ e ∈ steps, e.2.action ∈ steps.map (·.2.action) ∧ e.2.action.isPlain = true :=
    fun e he => ⟨List.mem_map_of_mem he, hplain e he⟩
  have hhome : ∀ k t, (joined steps)[k]? = some t → homeIn steps (0 + k) = t := by
    intro k t ht
    rw [Nat.zero_add, homeIn, ht]
    rfl
  obtain ⟨⟨count, d, hrun⟩, hanswers⟩ :=
    (excerpt_start flushOnInsert (homeIn steps) topic).run (named_start flushOnInsert topic) .empty
      hsteps hcancels hhome n
  exact ⟨hrun.sameTopic, hanswers⟩

/-- Three topics, of which one is the empty name and another a longer form of the third: in each
somebody waits, a message comes and wakes it, and some tasks are put off; then the store is
closed. A consumer of one topic and a session of another go by the same name. -/
def threeTopics : List (Int64 × Step) :=
  [(0, ⟨.subscribe "t" "s", false⟩), (0, ⟨.subscribe "topic:t" "c", false⟩),
   (1, ⟨.session "" "u" false, true⟩), (1, ⟨.session "topic:t" "s" false, false⟩),
   (2, ⟨.next "s" false, true⟩), (2, ⟨.next "c" false, false⟩), (3, ⟨.command "u" .init, true⟩),
   (3, ⟨.command "s" .init, false⟩), (4, ⟨.publish "" [1], true⟩),
   (5, ⟨.publish "topic:t" [2], true⟩), (5, ⟨.publish "t" [3], false⟩),
   (6, ⟨.settle "c" .nack, false⟩), (7, ⟨.drop "s", false⟩), (7, ⟨.cancel "s", true⟩),
   (8, ⟨.next "c" false, false⟩), (9, ⟨.shutdown, false⟩)]

theorem threeTopics_isolated :
    SameTopic (homeIn threeTopics) "topic:t" ((start true).runTimed threeTopics)
      ((start true).runTimed (onlyTopic "topic:t" {} threeTopics)) ∧
    (((start true).runTimed threeTopics).broker.roster? "topic:t").map (·.members) = some [1] ∧
    (((start true).runTimed (onlyTopic "topic:t" {} threeTopics)).broker.roster? "topic:t").map
      (·.members) = some [0] ∧
    ((start true).runTimed threeTopics).broker.frames 3 = [.message [2]] ∧
    ((start true).runTimed (onlyTopic "topic:t" {} threeTopics)).broker.frames 1 =
      [.message [2]] ∧
    ((start true).runTimed threeTopics).service.sessions.look 3 = none := by
  have hcancels : CancelsApart "topic:t" (threeTopics.map (·.2.action)) := by
    intro name hname u chunked hsession hcaller hother
    simp_all [threeTopics]
  have hsame := (topics_isolated true "topic:t" threeTopics (by decide) hcancels 16).1
  exact ⟨hsame, by decide +kernel, by decide +kernel, by decide +kernel, by decide +kernel,
    by decide +kernel⟩

end Scene

end TopicQueue

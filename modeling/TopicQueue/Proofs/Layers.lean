import Mathlib.Tactic.Choose
import TopicQueue.Config.Load

namespace TopicQueue.Config

theorem Entries.look_alter (es : Entries) (k : String) (f : Value → Value) (k' : String) :
    (es.alter k f).look k' = if k = k' then some (f ((es.look k').getD .null)) else es.look k' := by
  induction es with
  | nil => simp [alter, look]
  | cons e es ih =>
    obtain ⟨k₀, v⟩ := e
    by_cases hk : k₀ = k
    · subst hk
      by_cases hk' : k₀ = k' <;> simp [alter, look, hk']
    · by_cases hk' : k₀ = k'
      · subst hk'
        simp [alter, look, hk, Ne.symm hk]
      · simp [alter, look, hk, hk', ih]

namespace Value

/-- What a value has under a key; null stands for nothing. -/
def under (v : Value) (key : String) : Option Value :=
  match v.entries.look key with
  | none | some .null => none
  | some w => some w

/-- A value as far as it is not null. -/
def known : Value → Option Value
  | .null => none
  | v => some v

theorem under_known (v : Value) (key : String) :
    v.under key = ((v.entries.look key).getD .null).known := by
  unfold under
  cases v.entries.look key with
  | none => rfl
  | some w => cases w <;> rfl

theorem optional_known {α : Type} (convert : Value → Except Mismatch α) (v : Value) :
    optional convert v =
      match v.known with
      | none => .ok none
      | some w => (convert w).map some := by
  cases v <;> rfl

theorem under_alterAt (k : String) (p : List Step) (f : Value → Value) (v : Value) (k' : String)
    (h : k ≠ k') : (alterAt (.key k :: p) f v).under k' = v.under k' := by
  simp only [under, alterAt, entries, Entries.look_alter, if_neg h]

theorem under_alterAt_self (k : String) (p : List Step) (f : Value → Value) (v : Value) :
    (alterAt (.key k :: p) f v).entries.look k =
      some (alterAt p f ((v.entries.look k).getD .null)) := by
  simp only [alterAt, entries, Entries.look_alter, if_true]

end Value

/-- The settings, each on its own. -/
inductive Leaf where
  | host
  | port
  | maxPayloadBytes
  | path
  | flushOnInsert
  | level
  deriving DecidableEq, Repr

namespace Leaf

/-- The section that a leaf belongs to. -/
def home : Leaf → String
  | host | port | maxPayloadBytes => "server"
  | path | flushOnInsert => "storage"
  | level => "logging"

/-- The key of a leaf in its section. -/
def key : Leaf → String
  | host => "host"
  | port => "port"
  | maxPayloadBytes => "max_payload_bytes"
  | path => "path"
  | flushOnInsert => "flush_on_insert"
  | level => "level"

/-- Where a leaf stands among those of its section. -/
def place : Leaf → Nat
  | host | path | level => 0
  | port | flushOnInsert => 1
  | maxPayloadBytes => 2

/-- How many leaves its section has. -/
def breadth : Leaf → Nat
  | host | port | maxPayloadBytes => 3
  | path | flushOnInsert => 2
  | level => 1

/-- The way to a leaf. -/
def steps (l : Leaf) : List Step := [.key l.home, .key l.key]

instance {p : Leaf → Prop} [DecidablePred p] : Decidable (∀ l, p l) :=
  decidable_of_iff
    (p host ∧ p port ∧ p maxPayloadBytes ∧ p path ∧ p flushOnInsert ∧ p level)
    ⟨fun ⟨hh, hp, hm, hd, hf, hl⟩ l => match l with
      | host => hh
      | port => hp
      | maxPayloadBytes => hm
      | path => hd
      | flushOnInsert => hf
      | level => hl,
    fun h => ⟨h _, h _, h _, h _, h _, h _⟩⟩

instance {p : Leaf → Prop} [DecidablePred p] : Decidable (∃ l, p l) :=
  decidable_of_iff (¬∀ l, ¬p l) not_forall_not

def type : Leaf → Type
  | host | path | level => String
  | port => UInt16
  | maxPayloadBytes => UInt64
  | flushOnInsert => Bool

/-- A leaf of settings. -/
def of : (l : Leaf) → Settings → l.type
  | host, s => s.server.host
  | port, s => s.server.port
  | maxPayloadBytes, s => s.server.maxPayloadBytes
  | path, s => s.storage.path
  | flushOnInsert, s => s.storage.flushOnInsert
  | level, s => s.logging.level

/-- A value as one of a leaf's type. -/
def convert : (l : Leaf) → Value → Except Mismatch l.type
  | host | path | level => Value.toText
  | port => Value.toPort
  | maxPayloadBytes => Value.toSize
  | flushOnInsert => Value.toBool

/-- Settings of which each leaf is known. -/
def build (f : (l : Leaf) → l.type) : Settings where
  server := ⟨f host, f port, f maxPayloadBytes⟩
  storage := ⟨f path, f flushOnInsert⟩
  logging := ⟨f level⟩

@[simp]
theorem of_build (f : (l : Leaf) → l.type) (l : Leaf) : l.of (build f) = f l := by
  cases l <;> rfl

theorem settings_ext {s t : Settings} (h : ∀ l : Leaf, l.of s = l.of t) : s = t := by
  obtain ⟨⟨sh, sp, sm⟩, ⟨sd, sf⟩, ⟨sl⟩⟩ := s
  obtain ⟨⟨th, tp, tm⟩, ⟨td, tf⟩, ⟨tl⟩⟩ := t
  obtain rfl : sh = th := h host
  obtain rfl : sp = tp := h port
  obtain rfl : sm = tm := h maxPayloadBytes
  obtain rfl : sd = td := h path
  obtain rfl : sf = tf := h flushOnInsert
  obtain rfl : sl = tl := h level
  rfl

/-- What a configuration says about a leaf. -/
def given (l : Leaf) (root : Value) : Option Value := (root.under l.home).bind (·.under l.key)

/-- What a section says about a leaf, under its key, or in its place if the section is a list. -/
def within (l : Leaf) : Value → Option Value
  | .list vs => vs[l.place]?.bind Value.known
  | v => v.under l.key

/-- What a configuration says about a leaf, whose section may be a list. -/
def held (l : Leaf) (root : Value) : Option Value := (root.under l.home).bind l.within

/-- A leaf of settings is what is said about it, or its default. -/
def Holds (l : Leaf) (said : Option Value) (s : Settings) : Prop :=
  match said with
  | none => l.of s = l.of {}
  | some v => l.convert v = .ok (l.of s)

end Leaf

/-- What a configuration has under the name of a section is a table. -/
def Keyed (root : Value) : Prop :=
  ∀ (l : Leaf) (v : Value), root.under l.home = some v → ∃ es, v = .table es

/-- A section that can be read: a table, or a list of so many values or more. -/
inductive Shaped (breadth : Nat) : Value → Prop
  | table (es : Entries) : Shaped breadth (.table es)
  | list {vs : List Value} (long : breadth ≤ vs.length) : Shaped breadth (.list vs)

/-- The sections of a configuration can be read. -/
def Sound (root : Value) : Prop :=
  ∀ (l : Leaf) (v : Value), root.under l.home = some v → Shaped l.breadth v

theorem Keyed.sound {root : Value} (keyed : Keyed root) : Sound root := by
  intro l v hv
  obtain ⟨es, rfl⟩ := keyed l v hv
  exact .table es

theorem Keyed.held {root : Value} (keyed : Keyed root) (l : Leaf) :
    l.held root = l.given root := by
  unfold Leaf.held Leaf.given
  cases h : root.under l.home with
  | none => rfl
  | some v =>
    obtain ⟨es, rfl⟩ := keyed l v h
    rfl

section Reading

variable {α β : Type} {x : Except Mismatch α}

theorem bind_eq_ok {f : α → Except Mismatch β} {b : β} :
    (x >>= f) = .ok b ↔ ∃ a, x = .ok a ∧ f a = .ok b := by
  cases x with
  | error e => simp [bind, Except.bind]
  | ok a => simp [bind, Except.bind]

theorem map_eq_ok {f : α → β} {b : β} : x.map f = .ok b ↔ ∃ a, x = .ok a ∧ f a = b := by
  cases x with
  | error e => simp [Except.map]
  | ok a => simp [Except.map]

/-- What is said about a leaf, converted. -/
def Leaf.reading (l : Leaf) : Option Value → Except Mismatch (Option l.type)
  | none => .ok none
  | some v => (l.convert v).map some

theorem Leaf.holds_iff {l : Leaf} {said : Option Value} {s : Settings} :
    l.Holds said s ↔ ∃ o, l.reading said = .ok o ∧ o.getD (l.of {}) = l.of s := by
  unfold Holds
  cases said with
  | none => simp [reading, eq_comm]
  | some v =>
    simp only [reading, map_eq_ok]
    constructor
    · intro h
      exact ⟨some (l.of s), ⟨_, h, rfl⟩, rfl⟩
    · rintro ⟨_, ⟨x, hx, rfl⟩, rfl⟩
      exact hx

theorem Leaf.reading_known (l : Leaf) (v : Value) :
    Value.optional l.convert v = l.reading v.known := by
  rw [Value.optional_known]
  cases v.known <;> rfl

/-- A section reads as its leaves do if it can be read, whether it is there or not. -/
theorem section_reads {root : Value} (l : Leaf) {convert : Value → Except Mismatch α} {absent' : α}
    {leaves : Except Mismatch α} (absent : root.under l.home = none → leaves = .ok absent')
    (present : ∀ v, root.under l.home = some v → Shaped l.breadth v → convert v = leaves)
    (misshapen : ∀ v, ¬Shaped l.breadth v → convert v = .error .mismatch) {a : α} :
    (∃ o, Value.optional convert ((root.entries.look l.home).getD .null) = .ok o ∧
      o.getD absent' = a) ↔
    (∀ v, root.under l.home = some v → Shaped l.breadth v) ∧ leaves = .ok a := by
  rw [Value.optional_known, ← Value.under_known]
  cases h : root.under l.home with
  | none => simp [absent h]
  | some v =>
    by_cases shaped : Shaped l.breadth v
    · simp only [present v h shaped, map_eq_ok]
      constructor
      · rintro ⟨_, ⟨x, hx, rfl⟩, rfl⟩
        refine ⟨?_, hx⟩
        rintro _ ⟨⟩
        exact shaped
      · rintro ⟨-, hx⟩
        exact ⟨some a, ⟨a, hx, rfl⟩, rfl⟩
    · simp [misshapen v shaped, Except.map, shaped]

end Reading

open Leaf

theorem Leaf.held_absent {l : Leaf} {root : Value} (h : root.under l.home = none) :
    l.held root = none := by
  rw [held, h]
  rfl

theorem Leaf.held_table {l : Leaf} {root : Value} {es : Entries}
    (h : root.under l.home = some (.table es)) :
    l.held root = ((es.look l.key).getD .null).known := by
  rw [held, h]
  exact Value.under_known (.table es) l.key

theorem Leaf.held_list {l : Leaf} {root : Value} {vs : List Value}
    (h : root.under l.home = some (.list vs)) : l.held root = vs[l.place]?.bind Value.known := by
  rw [held, h]
  rfl

/-- The server's section as its leaves read. -/
def serverLeaves (root : Value) : Except Mismatch PartialServer := do
  return ⟨← host.reading (host.held root), ← port.reading (port.held root),
    ← maxPayloadBytes.reading (maxPayloadBytes.held root)⟩

def storageLeaves (root : Value) : Except Mismatch PartialStorage := do
  return ⟨← path.reading (path.held root), ← flushOnInsert.reading (flushOnInsert.held root)⟩

def loggingLeaves (root : Value) : Except Mismatch PartialLogging := do
  return ⟨← level.reading (level.held root)⟩

theorem toServer_leaves {root v : Value} (h : root.under "server" = some v) (shaped : Shaped 3 v) :
    v.toServer = serverLeaves root := by
  cases shaped with
  | table es =>
    rw [serverLeaves, held_table (l := host) h, held_table (l := port) h,
      held_table (l := maxPayloadBytes) h, ← reading_known, ← reading_known, ← reading_known]
    rfl
  | @list vs long =>
    match vs, long with
    | a :: b :: c :: rest, _ =>
      have items : host.held root = a.known ∧ port.held root = b.known ∧
          maxPayloadBytes.held root = c.known :=
        ⟨held_list (l := host) h, held_list (l := port) h, held_list (l := maxPayloadBytes) h⟩
      rw [serverLeaves, items.1, items.2.1, items.2.2, ← reading_known, ← reading_known,
        ← reading_known]
      rfl

theorem toStorage_leaves {root v : Value} (h : root.under "storage" = some v)
    (shaped : Shaped 2 v) : v.toStorage = storageLeaves root := by
  cases shaped with
  | table es =>
    rw [storageLeaves, held_table (l := path) h, held_table (l := flushOnInsert) h,
      ← reading_known, ← reading_known]
    rfl
  | @list vs long =>
    match vs, long with
    | a :: b :: rest, _ =>
      have items : path.held root = a.known ∧ flushOnInsert.held root = b.known :=
        ⟨held_list (l := path) h, held_list (l := flushOnInsert) h⟩
      rw [storageLeaves, items.1, items.2, ← reading_known, ← reading_known]
      rfl

theorem toLogging_leaves {root v : Value} (h : root.under "logging" = some v)
    (shaped : Shaped 1 v) : v.toLogging = loggingLeaves root := by
  cases shaped with
  | table es =>
    rw [loggingLeaves, held_table (l := level) h, ← reading_known]
    rfl
  | @list vs long =>
    match vs, long with
    | a :: rest, _ =>
      have item : level.held root = a.known := held_list (l := level) h
      rw [loggingLeaves, item, ← reading_known]
      rfl

/-- The fields of a section that cannot be read. -/
theorem fields_misshapen (names : List String) {v : Value} (h : ¬Shaped names.length v) :
    v.fields names = .error .mismatch := by
  cases v with
  | table es => exact absurd (.table es) h
  | list vs =>
    have short : vs.length < names.length := Nat.lt_of_not_le fun long => h (.list long)
    simp only [Value.fields, if_pos short]
  | null | bool | int | float | text => rfl

theorem toServer_misshapen (v : Value) (h : ¬Shaped 3 v) : v.toServer = .error .mismatch := by
  rw [Value.toServer, fields_misshapen ["host", "port", "max_payload_bytes"] h]
  rfl

theorem toStorage_misshapen (v : Value) (h : ¬Shaped 2 v) : v.toStorage = .error .mismatch := by
  rw [Value.toStorage, fields_misshapen ["path", "flush_on_insert"] h]
  rfl

theorem toLogging_misshapen (v : Value) (h : ¬Shaped 1 v) : v.toLogging = .error .mismatch := by
  rw [Value.toLogging, fields_misshapen ["level"] h]
  rfl

theorem server_reads (root : Value) {a : PartialServer} :
    (∃ o, Value.optional Value.toServer ((root.entries.look "server").getD .null) = .ok o ∧
      o.getD {} = a) ↔
    (∀ v, root.under "server" = some v → Shaped 3 v) ∧ serverLeaves root = .ok a :=
  section_reads host
    (fun h => by
      rw [serverLeaves, held_absent (l := host) h, held_absent (l := port) h,
        held_absent (l := maxPayloadBytes) h]
      rfl)
    (fun _ h shaped => toServer_leaves h shaped) toServer_misshapen

theorem storage_reads (root : Value) {a : PartialStorage} :
    (∃ o, Value.optional Value.toStorage ((root.entries.look "storage").getD .null) = .ok o ∧
      o.getD {} = a) ↔
    (∀ v, root.under "storage" = some v → Shaped 2 v) ∧ storageLeaves root = .ok a :=
  section_reads path
    (fun h => by
      rw [storageLeaves, held_absent (l := path) h, held_absent (l := flushOnInsert) h]
      rfl)
    (fun _ h shaped => toStorage_leaves h shaped) toStorage_misshapen

theorem logging_reads (root : Value) {a : PartialLogging} :
    (∃ o, Value.optional Value.toLogging ((root.entries.look "logging").getD .null) = .ok o ∧
      o.getD {} = a) ↔
    (∀ v, root.under "logging" = some v → Shaped 1 v) ∧ loggingLeaves root = .ok a :=
  section_reads level
    (fun h => by
      rw [loggingLeaves, held_absent (l := level) h]
      rfl)
    (fun _ h shaped => toLogging_leaves h shaped) toLogging_misshapen

theorem toSettings_cases {es : Entries} {p : PartialSettings} :
    (Value.table es).toSettings = .ok p ↔
      Value.optional Value.toServer ((es.look "server").getD .null) = .ok p.server ∧
      Value.optional Value.toStorage ((es.look "storage").getD .null) = .ok p.storage ∧
      Value.optional Value.toLogging ((es.look "logging").getD .null) = .ok p.logging := by
  have unfolded : (Value.table es).toSettings = (do
      return ⟨← Value.optional Value.toServer ((es.look "server").getD .null),
        ← Value.optional Value.toStorage ((es.look "storage").getD .null),
        ← Value.optional Value.toLogging ((es.look "logging").getD .null)⟩) := rfl
  rw [unfolded]
  simp only [bind_eq_ok, pure, Except.pure, Except.ok.injEq]
  constructor
  · rintro ⟨a, ha, b, hb, c, hc, rfl⟩
    exact ⟨ha, hb, hc⟩
  · rintro ⟨ha, hb, hc⟩
    exact ⟨_, ha, _, hb, _, hc, rfl⟩

/-- The settings of a configuration are what it says leaf by leaf, if its sections can be read. -/
theorem toSettings_ok {es : Entries} {s : Settings} :
    (∃ p, (Value.table es).toSettings = .ok p ∧ p.onto {} = s) ↔
      Sound (.table es) ∧ ∀ l : Leaf, l.Holds (l.held (.table es)) s := by
  constructor
  · rintro ⟨p, hp, rfl⟩
    obtain ⟨hserver, hstorage, hlogging⟩ := toSettings_cases.mp hp
    obtain ⟨serverShaped, hserver⟩ := (server_reads (.table es)).mp ⟨_, hserver, rfl⟩
    obtain ⟨storageShaped, hstorage⟩ := (storage_reads (.table es)).mp ⟨_, hstorage, rfl⟩
    obtain ⟨loggingShaped, hlogging⟩ := (logging_reads (.table es)).mp ⟨_, hlogging, rfl⟩
    simp only [serverLeaves, storageLeaves, loggingLeaves, bind_eq_ok, pure, Except.pure,
      Except.ok.injEq] at hserver hstorage hlogging
    obtain ⟨oh, hh, op, hp, om, hm, he⟩ := hserver
    obtain ⟨od, hd, of, hf, he'⟩ := hstorage
    obtain ⟨ol, hl, he''⟩ := hlogging
    refine ⟨fun l => ?_, fun l => ?_⟩
    · cases l with
      | host | port | maxPayloadBytes => exact serverShaped
      | path | flushOnInsert => exact storageShaped
      | level => exact loggingShaped
    · rw [Leaf.holds_iff]
      simp only [PartialSettings.onto, ← he, ← he', ← he'']
      cases l with
      | host => exact ⟨oh, hh, rfl⟩
      | port => exact ⟨op, hp, rfl⟩
      | maxPayloadBytes => exact ⟨om, hm, rfl⟩
      | path => exact ⟨od, hd, rfl⟩
      | flushOnInsert => exact ⟨of, hf, rfl⟩
      | level => exact ⟨ol, hl, rfl⟩
  · rintro ⟨sound, h⟩
    have each := fun l => Leaf.holds_iff.mp (h l)
    choose o ho hs using each
    obtain ⟨a, ha, hea⟩ := (server_reads (.table es) (a := ⟨o host, o port, o maxPayloadBytes⟩)).mpr
      ⟨sound host, by simp only [serverLeaves, ho]; rfl⟩
    obtain ⟨b, hb, heb⟩ := (storage_reads (.table es) (a := ⟨o path, o flushOnInsert⟩)).mpr
      ⟨sound path, by simp only [storageLeaves, ho]; rfl⟩
    obtain ⟨c, hc, hec⟩ := (logging_reads (.table es) (a := ⟨o level⟩)).mpr
      ⟨sound level, by simp only [loggingLeaves, ho]; rfl⟩
    refine ⟨⟨a, b, c⟩, toSettings_cases.mpr ⟨ha, hb, hc⟩, Leaf.settings_ext fun l => ?_⟩
    rw [← hs l]
    simp only [PartialSettings.onto, hea, heb, hec]
    cases l <;> rfl

theorem Leaf.given_apart {l : Leaf} {k : String} (p : List Step) (f : Value → Value) (root : Value)
    (h : k ≠ l.home) : l.given (root.alterAt (.key k :: p) f) = l.given root := by
  rw [given, Value.under_alterAt k p f root l.home h, given]

theorem Leaf.given_beside {l : Leaf} {h k : String} (p : List Step) (f : Value → Value)
    (root : Value) (apart : ¬(h = l.home ∧ k = l.key)) :
    l.given (root.alterAt (.key h :: .key k :: p) f) = l.given root := by
  by_cases hh : h = l.home
  · subst hh
    have hk : k ≠ l.key := fun hk => apart ⟨rfl, hk⟩
    have within : (root.alterAt (.key l.home :: .key k :: p) f).under l.home =
        some (((root.entries.look l.home).getD .null).alterAt (.key k :: p) f) := by
      rw [Value.under, Value.under_alterAt_self]
      rfl
    rw [given, within, Option.bind_some, Value.under_alterAt k p f _ l.key hk, given, Value.under,
      Value.under]
    cases root.entries.look l.home with
    | none => rfl
    | some v => cases v <;> rfl
  · exact given_apart _ f root hh

theorem Leaf.given_at (l : Leaf) {v : Value} (root : Value) (hn : v ≠ .null)
    {f : Value → Value} (hf : ∀ w, f w = v) : l.given (root.alterAt l.steps f) = some v := by
  have within : (root.alterAt l.steps f).under l.home =
      some (((root.entries.look l.home).getD .null).alterAt [.key l.key] f) := by
    rw [Value.under, steps, Value.under_alterAt_self]
    rfl
  rw [given, within, Option.bind_some, Value.under, Value.under_alterAt_self]
  simp only [Value.alterAt, hf]

/-- What is under a name is a table, if there is anything. -/
def TableAt (name : String) (root : Value) : Prop :=
  ∀ v, root.under name = some v → ∃ es, v = .table es

namespace TableAt

variable {name : String} {root : Value}

theorem apart (tabular : TableAt name root) {k : String} (p : List Step) (f : Value → Value)
    (h : k ≠ name) : TableAt name (root.alterAt (.key k :: p) f) := by
  intro v hv
  rw [Value.under_alterAt k p f root name h] at hv
  exact tabular v hv

theorem inside (tabular : TableAt name root) (h k : String) (p : List Step) (f : Value → Value) :
    TableAt name (root.alterAt (.key h :: .key k :: p) f) := by
  by_cases hh : h = name
  · subst hh
    intro v hv
    rw [Value.under, Value.under_alterAt_self] at hv
    cases hv
    exact ⟨_, rfl⟩
  · exact tabular.apart _ f hh

end TableAt

theorem Path.parse_head (s : String) : ∃ k p, parse s = .key k :: p := by
  unfold parse
  split
  · exact ⟨_, _, rfl⟩
  · split <;> exact ⟨_, _, rfl⟩

theorem Value.lay_table (root : Value) (path : String) (v : Value) :
    ∃ es, root.lay path v = .table es := by
  obtain ⟨k, p, h⟩ := Path.parse_head path
  exact ⟨_, by rw [lay, h, alterAt]⟩

namespace Environment

/-- The way that a variable's name leads; a name may lead nowhere. -/
def steps? (name : String) : Option (List Step) := (path? name).map Path.parse

/-- A way that ends neither at a leaf nor above or below one. -/
def Elsewhere : List Step → Prop
  | .key h :: .key k :: _ => ∀ l : Leaf, ¬(h = l.home ∧ k = l.key)
  | .key k :: _ => ∀ l : Leaf, k ≠ l.home
  | _ => False

/-- Each variable is for one leaf or for none, and no two are for the same. -/
structure Tidy (env : List (String × String)) : Prop where
  fits : ∀ p ∈ env, ∀ way, steps? p.1 = some way → (∃ l : Leaf, way = l.steps) ∨ Elsewhere way
  single : env.Pairwise fun p q => ∀ l : Leaf, steps? p.1 = some l.steps → steps? q.1 ≠ some l.steps

/-- What the environment says about a leaf. -/
def given (env : List (String × String)) (l : Leaf) : Option Value :=
  (env.find? fun p => steps? p.1 = some l.steps).map fun p => value p.2

theorem value_onto (text : String) (below : Value) : (value text).onto below = value text := by
  unfold value
  simp only []
  split
  · rfl
  · split
    · rfl
    · split
      · rfl
      · split <;> rfl

theorem value_ne_null (text : String) : value text ≠ .null := by
  unfold value
  simp only []
  split
  · simp
  · split
    · simp
    · split
      · simp
      · split <;> simp

theorem lay_cons (name text : String) (env : List (String × String)) (root : Value) :
    lay ((name, text) :: env) root =
      lay env (match steps? name with
        | none => root
        | some way => root.alterAt way (value text).onto) := by
  simp only [lay, List.foldl_cons, steps?]
  cases path? name <;> rfl

theorem Tidy.tail {p : String × String} {env : List (String × String)} (tidy : Tidy (p :: env)) :
    Tidy env :=
  ⟨fun q hq => tidy.fits q (List.mem_cons_of_mem p hq), (List.pairwise_cons.mp tidy.single).2⟩

theorem Elsewhere.given {way : List Step} (away : Elsewhere way) (l : Leaf) (f : Value → Value)
    (root : Value) : l.given (root.alterAt way f) = l.given root := by
  unfold Elsewhere at away
  split at away
  · exact given_beside _ f root (away l)
  · exact given_apart _ f root (away l)
  · exact away.elim

theorem Elsewhere.tableAt {way : List Step} (away : Elsewhere way) (f : Value → Value) {l : Leaf}
    {root : Value} (tabular : TableAt l.home root) : TableAt l.home (root.alterAt way f) := by
  unfold Elsewhere at away
  split at away
  · exact tabular.inside _ _ _ _
  · exact tabular.apart _ f (away l)
  · exact away.elim

/-- The environment has the last word on the leaves that it names, and none on the others. -/
theorem given_lay {env : List (String × String)} (tidy : Tidy env) (l : Leaf) (root : Value) :
    l.given (lay env root) = (given env l).or (l.given root) := by
  induction env generalizing root with
  | nil => rfl
  | cons p env ih =>
    obtain ⟨name, text⟩ := p
    rw [lay_cons, ih tidy.tail]
    cases hw : steps? name with
    | none => simp [given, hw]
    | some way =>
      simp only []
      by_cases hl : way = l.steps
      · have alone : given env l = none := by
          have h := (List.pairwise_cons.mp tidy.single).1
          simp only [given, Option.map_eq_none_iff, List.find?_eq_none, decide_eq_true_eq]
          exact fun q hq => h q hq l (hl ▸ hw)
        rw [alone, hl, l.given_at root (value_ne_null text) (value_onto text)]
        simp [given, hw, hl]
      · have beside : l.given (root.alterAt way (value text).onto) = l.given root := by
          rcases tidy.fits (name, text) List.mem_cons_self way hw with ⟨l', rfl⟩ | away
          · refine given_beside [] _ root fun ⟨hh, hk⟩ => hl ?_
            rw [steps, steps, hh, hk]
          · exact away.given l _ root
        rw [beside]
        simp [given, hw, hl]

theorem tableAt_lay {env : List (String × String)} (tidy : Tidy env) {l : Leaf} {root : Value}
    (tabular : TableAt l.home root) : TableAt l.home (lay env root) := by
  induction env generalizing root with
  | nil => exact tabular
  | cons p env ih =>
    obtain ⟨name, text⟩ := p
    rw [lay_cons]
    refine ih tidy.tail ?_
    cases hw : steps? name with
    | none => exact tabular
    | some way =>
      rcases tidy.fits (name, text) List.mem_cons_self way hw with ⟨l', rfl⟩ | away
      · exact tabular.inside _ _ _ _
      · exact away.tableAt _ tabular

theorem lay_table (env : List (String × String)) (es : Entries) :
    ∃ es', lay env (.table es) = .table es' := by
  induction env generalizing es with
  | nil => exact ⟨es, rfl⟩
  | cons p env ih =>
    obtain ⟨name, text⟩ := p
    simp only [lay, List.foldl_cons]
    cases path? name with
    | none => exact ih es
    | some path =>
      obtain ⟨es', h⟩ := Value.lay_table (.table es) path (value text)
      simp only [h]
      exact ih es'

end Environment

theorem layEntries_table (es below : Entries) :
    ∃ es', layEntries es (.table below) = .table es' := by
  induction es generalizing below with
  | nil => exact ⟨below, rfl⟩
  | cons e es ih =>
    obtain ⟨es', h⟩ := Value.lay_table (.table below) e.1 e.2
    simp only [layEntries, List.foldl_cons, h]
    exact ih es'

/-- What the entries of a file make up. -/
def tree (es : Entries) : Value := layEntries es (.table [])

/-- Settings are what the sources have to say together, if it can be read. -/
theorem settings_iff {es : Entries} {env : List (String × String)} {s : Settings} :
    settings es env = .ok s ↔ Sound (Environment.lay env (tree es)) ∧
      ∀ l : Leaf, l.Holds (l.held (Environment.lay env (tree es))) s := by
  obtain ⟨below, hb⟩ := layEntries_table es []
  obtain ⟨es', he⟩ := Environment.lay_table env below
  have hroot : Environment.lay env (tree es) = .table es' := by rw [tree, hb, he]
  rw [hroot, ← toSettings_ok, settings]
  simp only [← tree.eq_def, hroot]
  cases (Value.table es').toSettings with
  | error e => cases e; simp
  | ok p => simp

theorem settings_error {es : Entries} {env : List (String × String)} {e : LoadError}
    (h : settings es env = .error e) : e = .value := by
  simp only [settings] at h
  split at h
  · cases h
    rfl
  · cases h

theorem fileEntries_named {files : Files} {name : String} {contents : Bytes} {format : Format}
    {es : Entries} (read : files.read name = some contents)
    (known : (extension? name).bind Format.ofExtension? = some format)
    (parsed : format.parse contents = some es) : fileEntries files (some name) = .ok es := by
  simp only [fileEntries, find?, Option.getD_some, read, known, Option.map_some, parsed]

end TopicQueue.Config

import Mathlib.Data.List.Pairwise
import TopicQueue.Proofs.Conversions
import TopicQueue.Proofs.VariableNames

namespace TopicQueue.Config

/-- Variables that are for one leaf each, if for any, and no two for the same. Where the file has
something else than a table for a section, those that lead into it are for leaves. -/
structure Apt (es : Entries) (env : List (String × String)) : Prop where
  direct : ∀ p ∈ env, ∀ k, Environment.Sets p.1 k →
    ∀ l : Leaf, k ≠ l.home ∧ ¬l.Strays Environment.gaps k
  once : env.Pairwise fun p q => ∀ l : Leaf, l.Named p.1 → ¬l.Named q.1
  into : ∀ e ∈ es, ∀ l : Leaf, e.1 = l.home → (∀ inner, e.2 ≠ .table inner) →
    ∀ p ∈ env, ∀ k, Environment.Sets p.1 k → l.Enters Environment.gaps k → ∃ l' : Leaf, l'.Named p.1

namespace Apt

variable {es : Entries} {env : List (String × String)}

theorem tidy (apt : Apt es env) : Environment.Tidy env where
  single := apt.once.imp fun apart l hp hq =>
    apart l (Environment.named_iff.mpr hp) (Environment.named_iff.mpr hq)
  fits := by
    intro p hp way hway
    by_cases leaf : ∃ l : Leaf, way = l.steps
    · exact .inl leaf
    right
    obtain ⟨path, hpath, rfl⟩ := Option.map_eq_some_iff.mp hway
    obtain ⟨k, sets, rfl⟩ := Environment.path?_iff.mp hpath
    obtain ⟨h, steps, hsteps⟩ := Path.parse_head (Environment.undotted k)
    have apart : ∀ l : Leaf, h = l.home → ∃ k' p', steps = .key k' :: p' ∧ k' ≠ l.key := by
      intro l hh
      obtain ⟨section', direct⟩ := apt.direct p hp k sets l
      obtain ⟨h', p', parsed, beside⟩ := Path.parse_beside l
        (mt Environment.strays_of_dotted direct) (mt Environment.home_of_undotted section')
        fun same => leaf ⟨l, by rw [same, Path.parse_leaf]⟩
      obtain ⟨head, rfl⟩ := List.cons.inj (hsteps.symm.trans parsed)
      cases head
      exact (beside hh).2
    rw [hsteps]
    unfold Environment.Elsewhere
    split
    · rename_i h' k' p' same
      cases same
      rintro l ⟨hh, hk⟩
      obtain ⟨_, _, same, other⟩ := apart l hh
      cases same
      exact other hk
    · rename_i h' p' inner same
      cases same
      intro l hh
      obtain ⟨k', p', rfl, -⟩ := apart l hh
      exact inner _ _ rfl
    · rename_i nothing
      exact nothing _ _ rfl

end Apt

/-- What a variable's text is taken for. -/
inductive Taken (text : String) : Value → Prop
  | truth {b : Bool} (h : IsTruth text b) : Taken text (.bool b)
  | whole {i : Int} (h : IsWhole text i) : Taken text (.int i)
  | real {d : Double} (h : IsReal text d) : Taken text (.float d)
  | plain (h : IsPlain text) : Taken text (.text text)

theorem Environment.value_iff {text : String} {v : Value} : value text = v ↔ Taken text v := by
  constructor
  · rintro rfl
    rcases taken_cases text with ⟨b, truth⟩ | ⟨i, whole⟩ | ⟨d, real⟩ | plain
    · rw [value_truth truth]
      exact .truth truth
    · rw [value_whole whole]
      exact .whole whole
    · rw [value_real real]
      exact .real real
    · rw [value_plain plain]
      exact .plain plain
  · intro h
    cases h with
    | truth truth => exact value_truth truth
    | whole whole => exact value_whole whole
    | real real => exact value_real real
    | plain plain => exact value_plain plain

theorem tableAt_steps (l : Leaf) (f : Value → Value) (root : Value) :
    TableAt l.home (root.alterAt l.steps f) := by
  intro v hv
  rw [Leaf.steps, Value.under, Value.under_alterAt_self] at hv
  cases hv
  exact ⟨_, rfl⟩

namespace Apt

variable {es : Entries} {env : List (String × String)}

theorem given_iff (apt : Apt es env) {l : Leaf} {v : Value} :
    Environment.given env l = some v ↔ ∃ p ∈ env, l.Named p.1 ∧ Taken p.2 v := by
  rw [Environment.given, Option.map_eq_some_iff]
  simp only [← Environment.named_iff, ← Environment.value_iff]
  constructor
  · rintro ⟨p, hp, value⟩
    exact ⟨p, List.mem_of_find?_eq_some hp, by simpa using List.find?_some hp, value⟩
  · rintro ⟨p, hp, named, value⟩
    cases hq : env.find? fun q => l.Named q.1 with
    | none => exact absurd named (by simpa using List.find?_eq_none.mp hq p hp)
    | some q =>
      have named' : l.Named q.1 := by simpa using List.find?_some hq
      have apart : Std.Symm fun p q : String × String => ∀ l : Leaf, l.Named p.1 → ¬l.Named q.1 :=
        ⟨fun _ _ h l hq hp => h l hp hq⟩
      refine ⟨q, rfl, ?_⟩
      by_cases same : q = p
      · rw [same, value]
      · exact absurd named (apt.once.forall (List.mem_of_find?_eq_some hq) hp same l named')

theorem given_none_iff {l : Leaf} :
    Environment.given env l = none ↔ ∀ p ∈ env, ¬l.Named p.1 := by
  simp only [Environment.given, Option.map_eq_none_iff, List.find?_eq_none, decide_eq_true_eq,
    ← Environment.named_iff]

/-- A section that a variable names a leaf of is a table. -/
theorem tableAt_named (apt : Apt es env) {l l' : Leaf} (home : l'.home = l.home)
    {p : String × String} (hp : p ∈ env) (named : l'.Named p.1) (root : Value) :
    TableAt l.home (Environment.lay env root) := by
  have tidy := apt.tidy
  clear apt
  induction env generalizing root with
  | nil => cases hp
  | cons q env ih =>
    obtain ⟨name, text⟩ := q
    rw [Environment.lay_cons]
    cases hp with
    | head =>
      rw [Environment.named_iff.mp named]
      refine Environment.tableAt_lay tidy.tail ?_
      rw [← home]
      exact tableAt_steps l' _ root
    | tail _ hp => exact ih hp _ tidy.tail

/-- A section that no variable names a leaf of stays as it is, if it is no table. -/
theorem under_unnamed (apt : Apt es env) {e : String × Value} (he : e ∈ es) {l : Leaf}
    (home : e.1 = l.home) (whole : ∀ inner, e.2 ≠ .table inner)
    (unnamed : ∀ l' : Leaf, l'.home = l.home → ∀ p ∈ env, ¬l'.Named p.1) (root : Value) :
    (Environment.lay env root).under l.home = root.under l.home := by
  have apart : ∀ p ∈ env, ∀ h steps, Environment.steps? p.1 = some (.key h :: steps) →
      h ≠ l.home := by
    rintro p hp h steps hsteps rfl
    obtain ⟨path, hpath, parsed⟩ := Option.map_eq_some_iff.mp hsteps
    obtain ⟨k, sets, rfl⟩ := Environment.path?_iff.mp hpath
    obtain ⟨section', direct⟩ := apt.direct p hp k sets l
    have leaf : Environment.undotted k ≠ l.home ++ "." ++ l.key := fun same => by
      refine unnamed l rfl p hp (Environment.named_iff.mpr ?_)
      rw [hsteps, ← parsed, same, Path.parse_leaf]
    obtain ⟨h, p', parsed', beside⟩ := Path.parse_beside l
      (mt Environment.strays_of_dotted direct) (mt Environment.home_of_undotted section') leaf
    rw [parsed] at parsed'
    cases parsed'
    obtain ⟨l', named⟩ := apt.into e he l home whole p hp k sets
      (Environment.enters_of_dotted (beside rfl).1)
    have same := Environment.named_iff.mp named
    rw [hsteps] at same
    exact unnamed l' (Step.key.inj (List.cons.inj (Option.some.inj same)).1).symm p hp named
  clear apt unnamed
  induction env generalizing root with
  | nil => rfl
  | cons q env ih =>
    obtain ⟨name, text⟩ := q
    obtain ⟨first, apart⟩ := List.forall_mem_cons.mp apart
    rw [Environment.lay_cons, ih _ apart]
    cases hsteps : Environment.steps? name with
    | none => rfl
    | some way =>
      obtain ⟨path, -, rfl⟩ := Option.map_eq_some_iff.mp hsteps
      obtain ⟨h, steps, parsed⟩ := Path.parse_head path
      rw [parsed] at hsteps
      simp only [parsed]
      exact Value.under_alterAt h steps _ root l.home (first h steps hsteps)

end Apt

/-- A value that decides a leaf: the environment's, or else the file's. Naming a leaf of a section
that the file has as a list does away with the list. -/
inductive Leaf.Governs (es : Entries) (env : List (String × String)) (l : Leaf) : Value → Prop
  | environment {p : String × String} {v : Value} (set : p ∈ env) (named : l.Named p.1)
      (taken : Taken p.2 v) : Governs es env l v
  | file {v : Value} (said : v ∈ l.sayings es) (present : v ≠ .null)
      (unset : ∀ p ∈ env, ¬l.Named p.1)
      (kept : ∀ vs, (l.home, .list vs) ∈ es →
        ∀ l' : Leaf, l'.home = l.home → ∀ p ∈ env, ¬l'.Named p.1) : Governs es env l v

/-- The file has something for a section that cannot be read, and the environment no leaf of it. -/
def Leaf.Spoilt (es : Entries) (env : List (String × String)) (l : Leaf) : Prop :=
  ∃ v, (l.home, v) ∈ es ∧ v ≠ .null ∧ ¬Shaped l.breadth v ∧
    ∀ l' : Leaf, l'.home = l.home → ∀ p ∈ env, ¬l'.Named p.1

def Leaf.default : (l : Leaf) → l.type
  | host => "127.0.0.1"
  | port => (8080 : UInt16)
  | maxPayloadBytes => (1048576 : UInt64)
  | path => "workq_db"
  | flushOnInsert => true
  | level => "info"

/-- What a leaf comes to. -/
inductive Leaf.Becomes (es : Entries) (env : List (String × String)) (l : Leaf) : l.type → Prop
  | value {v : Value} {x : l.type} (governs : l.Governs es env v) (reads : l.Reads v x) :
      Becomes es env l x
  | default (none' : ∀ v, ¬l.Governs es env v) : Becomes es env l l.default

theorem TableAt.held {l : Leaf} {root : Value} (tabular : TableAt l.home root) :
    l.held root = l.given root := by
  unfold Leaf.held Leaf.given
  cases h : root.under l.home with
  | none => rfl
  | some v =>
    obtain ⟨es, rfl⟩ := tabular v h
    rfl

theorem Value.known_eq_some {v w : Value} : v.known = some w ↔ v = w ∧ v ≠ .null := by
  cases v <;> simp [known]

theorem Plain.only {es : Entries} (plain : Plain es) {e : String × Value} (he : e ∈ es) {l : Leaf}
    (home : e.1 = l.home) (whole : ∀ inner, e.2 ≠ .table inner) {v : Value}
    (hv : (l.home, v) ∈ es) : v = e.2 :=
  congrArg Prod.snd (plain.alone e he l home whole _ hv (.inl rfl))

theorem Plain.mem_sayings {es : Entries} (plain : Plain es) {e : String × Value} (he : e ∈ es)
    {l : Leaf} (home : e.1 = l.home) (whole : ∀ inner, e.2 ≠ .table inner) {v : Value} :
    v ∈ l.sayings es ↔ v ∈ l.inside e.2 := by
  have told : l.told e = l.inside e.2 := if_pos home
  rw [Leaf.sayings, List.mem_flatMap, ← told]
  constructor
  · rintro ⟨e', he', said⟩
    have touches : e'.1 = l.home ∨ l.Enters ["."] e'.1 := by
      unfold Leaf.told at said
      split at said
      · exact .inl ‹_›
      · split at said
        · rename_i leaf
          refine .inr ⟨".", List.mem_cons_self, l.key.toList, ?_⟩
          rw [leaf, String.toList_append, String.toList_append, String.toList_append]
        · cases said
    rwa [plain.alone e he l home whole e' he' touches] at said
  · exact fun said => ⟨e, he, said⟩

/-- What becomes of the section of a leaf: it is made up of tables, or it is something else and
stays that until a variable names one of its leaves. -/
inductive SectionCase (es : Entries) (env : List (String × String)) (l : Leaf) : Prop
  | tables (tables : ∀ e ∈ es, e.1 = l.home → ∃ inner, e.2 = .table inner)
      (tabular : TableAt l.home (Environment.lay env (tree es)))
  | replaced {e p : String × _} {l' : Leaf} (he : e ∈ es) (home : e.1 = l.home)
      (whole : ∀ inner, e.2 ≠ .table inner) (home' : l'.home = l.home) (hp : p ∈ env)
      (named : l'.Named p.1) (tabular : TableAt l.home (Environment.lay env (tree es)))
  | kept {e : String × Value} (he : e ∈ es) (home : e.1 = l.home)
      (whole : ∀ inner, e.2 ≠ .table inner)
      (unnamed : ∀ l' : Leaf, l'.home = l.home → ∀ p ∈ env, ¬l'.Named p.1)
      (under : (Environment.lay env (tree es)).under l.home = e.2.known)

section Sources

variable {es : Entries} {env : List (String × String)}

theorem section_cases (plain : Plain es) (apt : Apt es env) (l : Leaf) : SectionCase es env l := by
  by_cases tables : ∀ e ∈ es, e.1 = l.home → ∃ inner, e.2 = .table inner
  · exact .tables tables (Environment.tableAt_lay apt.tidy (given_tree plain tables).1)
  · simp only [not_forall, not_exists] at tables
    obtain ⟨e, he, home, whole⟩ := tables
    by_cases named : ∃ l' : Leaf, l'.home = l.home ∧ ∃ p ∈ env, l'.Named p.1
    · obtain ⟨l', home', p, hp, names⟩ := named
      exact .replaced he home whole home' hp names (apt.tableAt_named home' hp names _)
    · have unnamed : ∀ l' : Leaf, l'.home = l.home → ∀ p ∈ env, ¬l'.Named p.1 :=
        fun l' home' p hp names => named ⟨l', home', p, hp, names⟩
      refine .kept he home whole unnamed ?_
      rw [apt.under_unnamed he home whole unnamed, under_tree plain he home whole]

theorem TableAt.shaped {l : Leaf} {root : Value} (tabular : TableAt l.home root) (v : Value)
    (hv : root.under l.home = some v) : Shaped l.breadth v := by
  obtain ⟨inner, rfl⟩ := tabular v hv
  exact .table inner

/-- A section can be read unless the file spoils it. -/
theorem shaped_iff (plain : Plain es) (apt : Apt es env) (l : Leaf) :
    (∀ v, (Environment.lay env (tree es)).under l.home = some v → Shaped l.breadth v) ↔
      ¬l.Spoilt es env := by
  cases section_cases plain apt l with
  | tables tables tabular =>
    refine iff_of_true tabular.shaped ?_
    rintro ⟨v, hv, -, misshapen, -⟩
    obtain ⟨inner, rfl⟩ := tables _ hv rfl
    exact misshapen (.table inner)
  | replaced he home whole home' hp named tabular =>
    refine iff_of_true tabular.shaped ?_
    rintro ⟨-, -, -, -, unnamed⟩
    exact unnamed _ home' _ hp named
  | @kept e he home whole unnamed under =>
    rw [under]
    simp only [Value.known_eq_some]
    constructor
    · rintro shaped ⟨v, hv, present, misshapen, -⟩
      obtain rfl := plain.only he home whole hv
      exact misshapen (shaped e.2 ⟨rfl, present⟩)
    · rintro sound v ⟨rfl, present⟩
      by_contra misshapen
      exact sound ⟨e.2, home ▸ he, present, misshapen, unnamed⟩

theorem Leaf.mem_inside_whole {l : Leaf} {v w : Value} (whole : ∀ inner, w ≠ .table inner)
    (h : v ∈ l.inside w) : ∃ vs, w = .list vs ∧ vs[l.place]? = some v := by
  cases w with
  | table inner => exact absurd rfl (whole inner)
  | list vs => exact ⟨vs, rfl, Option.mem_toList.mp h⟩
  | null | bool | int | float | text => cases h

/-- What a section that is no table says about a leaf, of what is not null. -/
theorem Leaf.known_within {l : Leaf} {v w : Value} (whole : ∀ inner, v ≠ .table inner) :
    v.known.bind l.within = some w ↔ w ∈ l.inside v ∧ w ≠ .null := by
  cases v with
  | table inner => exact absurd rfl (whole inner)
  | null | bool | int | float | text =>
    exact iff_of_false (fun h => by cases h) fun h => by cases h.1
  | list vs =>
    change vs[l.place]?.bind Value.known = some w ↔ w ∈ vs[l.place]?.toList ∧ w ≠ .null
    rw [Option.mem_toList, Option.bind_eq_some_iff]
    simp only [Value.known_eq_some]
    constructor
    · rintro ⟨u, item, rfl, present⟩
      exact ⟨item, present⟩
    · rintro ⟨item, present⟩
      exact ⟨w, item, rfl, present⟩

/-- What is held of a leaf that some value governs. -/
theorem held_governs (plain : Plain es) (apt : Apt es env) {l : Leaf} {v : Value}
    (governs : l.Governs es env v) :
    ∃ w, l.held (Environment.lay env (tree es)) = some w ∧ v.Alike w := by
  cases section_cases plain apt l with
  | tables tables tabular =>
    obtain ⟨-, file, -⟩ := given_tree plain tables
    rw [tabular.held, Environment.given_lay apt.tidy]
    cases governs with
    | environment set named taken =>
      rw [apt.given_iff.mpr ⟨_, set, named, taken⟩]
      exact ⟨v, rfl, .same v⟩
    | file said present unset _ =>
      rw [Apt.given_none_iff.mpr unset, Option.none_or]
      exact file v said present
  | replaced he home whole home' hp named tabular =>
    rw [tabular.held, Environment.given_lay apt.tidy]
    cases governs with
    | environment set named taken =>
      rw [apt.given_iff.mpr ⟨_, set, named, taken⟩]
      exact ⟨v, rfl, .same v⟩
    | file said _ _ kept =>
      obtain ⟨vs, list, -⟩ := Leaf.mem_inside_whole whole
        ((plain.mem_sayings he home whole).mp said)
      exact absurd named (kept vs (by rw [← home, ← list]; exact he) _ home' _ hp)
  | kept he home whole unnamed under =>
    cases governs with
    | environment set named _ => exact absurd named (unnamed l rfl _ set)
    | file said present _ _ =>
      refine ⟨v, ?_, .same v⟩
      rw [Leaf.held, under]
      exact (Leaf.known_within whole).mpr ⟨(plain.mem_sayings he home whole).mp said, present⟩

/-- Nothing is held of a leaf that no value governs. -/
theorem held_ungoverned (plain : Plain es) (apt : Apt es env) {l : Leaf}
    (none' : ∀ v, ¬l.Governs es env v) : l.held (Environment.lay env (tree es)) = none := by
  have unset : ∀ p ∈ env, ¬l.Named p.1 := fun _ hp named =>
    none' _ (.environment hp named (Environment.value_iff.mp rfl))
  cases section_cases plain apt l with
  | tables tables tabular =>
    obtain ⟨-, -, file⟩ := given_tree plain tables
    rw [tabular.held, Environment.given_lay apt.tidy, Apt.given_none_iff.mpr unset, Option.none_or]
    refine file fun v said => by_contra fun present => ?_
    refine none' v (.file said present unset fun vs list => ?_)
    obtain ⟨inner, nothing⟩ := tables _ list rfl
    cases nothing
  | @replaced e _ _ he home whole _ _ _ tabular =>
    have lost : l.given (tree es) = none := by
      rw [Leaf.given, under_tree plain he home whole]
      obtain ⟨k, v⟩ := e
      cases v with
      | table inner => exact absurd rfl (whole inner)
      | null | bool | int | float | text | list => rfl
    rw [tabular.held, Environment.given_lay apt.tidy, lost, Option.or_none]
    exact Apt.given_none_iff.mpr unset
  | kept he home whole unnamed under =>
    rw [Leaf.held, under, Option.eq_none_iff_forall_ne_some]
    intro v hv
    obtain ⟨inside, present⟩ := (Leaf.known_within whole).mp hv
    exact none' v (.file ((plain.mem_sayings he home whole).mpr inside) present unset
      fun _ _ => unnamed)

theorem Leaf.of_default (l : Leaf) : l.of {} = l.default := by
  cases l <;> rfl

/-- If two values govern a leaf, they read alike. -/
theorem Leaf.Governs.reads (plain : Plain es) (apt : Apt es env) {l : Leaf} {v v' : Value}
    (h : l.Governs es env v) (h' : l.Governs es env v') {x : l.type} :
    l.Reads v x ↔ l.Reads v' x := by
  obtain ⟨w, held, alike⟩ := held_governs plain apt h
  obtain ⟨w', held', alike'⟩ := held_governs plain apt h'
  obtain rfl := Option.some.inj (held.symm.trans held')
  rw [← Leaf.convert_iff, ← Leaf.convert_iff, alike.convert, alike'.convert]

/-- A leaf of settings is as it should be just if it is what the leaf comes to. -/
theorem holds_becomes (plain : Plain es) (apt : Apt es env) {l : Leaf} {s : Settings} :
    l.Holds (l.held (Environment.lay env (tree es))) s ↔ l.Becomes es env (l.of s) := by
  by_cases governs : ∃ v, l.Governs es env v
  · obtain ⟨v, governs⟩ := governs
    obtain ⟨w, held, alike⟩ := held_governs plain apt governs
    rw [held]
    change l.convert w = .ok (l.of s) ↔ _
    rw [← alike.convert, Leaf.convert_iff]
    constructor
    · exact fun reads => .value governs reads
    · intro becomes
      generalize l.of s = x at becomes
      cases becomes with
      | value governs' reads => exact (governs'.reads plain apt governs).mp reads
      | default none' => exact absurd governs (none' v)
  · have none' := not_exists.mp governs
    rw [held_ungoverned plain apt none']
    change l.of s = l.of {} ↔ _
    rw [Leaf.of_default]
    constructor
    · intro same
      rw [same]
      exact .default none'
    · intro becomes
      generalize l.of s = x at becomes
      cases becomes with
      | value governs => exact absurd governs (none' _)
      | default => rfl

theorem settings_becomes (plain : Plain es) (apt : Apt es env) {s : Settings} :
    settings es env = .ok s ↔
      (∀ l : Leaf, ¬l.Spoilt es env) ∧ ∀ l : Leaf, l.Becomes es env (l.of s) := by
  rw [settings_iff]
  exact and_congr (forall_congr' (shaped_iff plain apt))
    (forall_congr' fun _ => holds_becomes plain apt)

theorem settings_refused :
    settings es env = .error .value ↔ ∀ s, settings es env ≠ .ok s := by
  constructor
  · intro refused s loaded
    rw [refused] at loaded
    cases loaded
  · intro refused
    cases h : settings es env with
    | error e => rw [settings_error h]
    | ok s => exact absurd h (refused s)

theorem exists_becomes
    (reads : ∀ (l : Leaf) v, l.Governs es env v → ∃ x, l.Reads v x) :
    ∃ s : Settings, ∀ l : Leaf, l.Becomes es env (l.of s) := by
  have each : ∀ l : Leaf, ∃ x, l.Becomes es env x := by
    intro l
    by_cases governs : ∃ v, l.Governs es env v
    · obtain ⟨v, governs⟩ := governs
      obtain ⟨x, hx⟩ := reads l v governs
      exact ⟨x, .value governs hx⟩
    · exact ⟨_, .default (not_exists.mp governs)⟩
  choose x hx using each
  exact ⟨Leaf.build x, fun l => by rw [Leaf.of_build]; exact hx l⟩

theorem settings_fails (plain : Plain es) (apt : Apt es env) : settings es env = .error .value ↔
      ∃ l : Leaf, l.Spoilt es env ∨ ∃ v, l.Governs es env v ∧ ∀ x, ¬l.Reads v x := by
  rw [settings_refused]
  constructor
  · intro refused
    by_contra fine
    simp only [not_exists, not_or, not_and, not_forall, not_not] at fine
    obtain ⟨s, hs⟩ := exists_becomes fun l v => (fine l).2 v
    exact refused s ((settings_becomes plain apt).mpr ⟨fun l => (fine l).1, hs⟩)
  · rintro ⟨l, bad⟩ s loaded
    obtain ⟨sound, becomes⟩ := (settings_becomes plain apt).mp loaded
    obtain spoilt | ⟨v, governs, unread⟩ := bad
    · exact sound l spoilt
    · have becomes := becomes l
      generalize l.of s = x at becomes
      cases becomes with
      | value governs' reads => exact unread x ((governs'.reads plain apt governs).mp reads)
      | default none' => exact none' v governs

theorem Leaf.Becomes.congr {es' : Entries} {env' : List (String × String)} {l : Leaf}
    (same : ∀ v, l.Governs es env v ↔ l.Governs es' env' v) {x : l.type}
    (h : l.Becomes es env x) : l.Becomes es' env' x := by
  cases h with
  | value governs reads => exact .value ((same _).mp governs) reads
  | default none' => exact .default fun v governs => none' v ((same v).mpr governs)

/-- Sources that agree on what governs give the same settings. -/
theorem settings_agree {es' : Entries} {env' : List (String × String)} (plain : Plain es)
    (apt : Apt es env) (plain' : Plain es') (apt' : Apt es' env')
    (spoilt : ∀ l : Leaf, l.Spoilt es env ↔ l.Spoilt es' env')
    (same : ∀ (l : Leaf) v, l.Governs es env v ↔ l.Governs es' env' v) :
    settings es env = settings es' env' := by
  have settled : ∀ s, settings es env = .ok s ↔ settings es' env' = .ok s := fun s => by
    rw [settings_becomes plain apt, settings_becomes plain' apt']
    exact and_congr (forall_congr' fun l => not_congr (spoilt l)) (forall_congr' fun l =>
      ⟨.congr (same l), .congr fun v => (same l v).symm⟩)
  cases h : settings es' env' with
  | ok s => exact (settled s).mpr h
  | error e =>
    rw [settings_error h, settings_refused]
    intro s hs
    rw [(settled s).mp hs] at h
    cases h

/-- Configuration is laid leaf by leaf: each leaf comes to what the environment says of it, or else
the file, or else its default, and loading fails just where that cannot be read. What does not
govern a leaf is never looked at. -/
theorem load_leafwise (plain : Plain es) (apt : Apt es env) :
    (∀ s, settings es env = .ok s ↔
      (∀ l : Leaf, ¬l.Spoilt es env) ∧ ∀ l : Leaf, l.Becomes es env (l.of s)) ∧
    ((∀ l : Leaf, ¬l.Spoilt es env ∧ ∀ v, l.Governs es env v → ∃ x, l.Reads v x) →
      ∃ s, settings es env = .ok s) ∧
    ((∃ l : Leaf, l.Spoilt es env ∨ ∃ v, l.Governs es env v ∧ ∀ x, ¬l.Reads v x) →
      settings es env = .error .value) ∧
    (∀ es' env', Plain es' → Apt es' env' → (∀ l : Leaf, l.Spoilt es env ↔ l.Spoilt es' env') →
      (∀ (l : Leaf) v, l.Governs es env v ↔ l.Governs es' env' v) →
      settings es env = settings es' env') ∧
    ∀ files source, fileEntries files source = .ok es →
      load files env source = settings es env := by
  refine ⟨fun s => settings_becomes plain apt, fun fine => ?_, (settings_fails plain apt).mpr,
    fun es' env' plain' apt' => settings_agree plain apt plain' apt', fun files source file => ?_⟩
  · obtain ⟨s, hs⟩ := exists_becomes fun l => (fine l).2
    exact ⟨s, (settings_becomes plain apt).mpr ⟨fun l => (fine l).1, hs⟩⟩
  · rw [load, file]
    rfl

end Sources

theorem once_of_few {es : Entries} (few : ∀ l : Leaf, (l.sayings es).length ≤ 1) (l : Leaf) :
    ∀ v ∈ l.sayings es, ∀ w ∈ l.sayings es, v = w := by
  intro v hv w hw
  obtain ⟨u, hu⟩ := List.length_eq_one_iff.mp
    (Nat.le_antisymm (few l) (List.length_pos_of_mem hv))
  rw [hu, List.mem_singleton] at hv hw
  rw [hv, hw]

/-- Variables that name leaves are for those alone. -/
theorem apt_of_leaves {es : Entries} {env : List (String × String)}
    (leaves : ∀ p ∈ env, (∃ l : Leaf, l.Named p.1) ∨ Environment.path? p.1 = none)
    (once : env.Pairwise fun p q => ∀ l : Leaf, l.Named p.1 → ¬l.Named q.1) : Apt es env where
  once := once
  direct p hp k sets := by
    have direct : ∀ l' : Leaf, ∀ gap ∈ Environment.gaps, ∀ l : Leaf,
        l'.home ++ gap ++ l'.key ≠ l.home ∧
          ¬l.Strays Environment.gaps (l'.home ++ gap ++ l'.key) := by decide +kernel
    obtain ⟨l', gap, hgap, named⟩ | nothing := leaves p hp
    · rw [sets.unique named]
      exact direct l' gap hgap
    · rw [Environment.path?_iff.mpr ⟨k, sets, rfl⟩] at nothing
      cases nothing
  into _ _ _ _ _ p hp k sets _ := (leaves p hp).resolve_right fun nothing => by
    rw [Environment.path?_iff.mpr ⟨k, sets, rfl⟩] at nothing
    cases nothing

/-- A file in which a port stands that is none, a word for a truth value, and an empty section. -/
def mixedText : Bytes := Bytes.ofText
  "[server]\nhost = \"0.0.0.0\"\nport = \"many\"\n[storage]\nflush_on_insert = \"Off\"\n[logging]\n"

def mixedEntries : Entries :=
  [("server", .table [("host", .text "0.0.0.0"), ("port", .text "many")]),
    ("storage", .table [("flush_on_insert", .text "Off")]), ("logging", .table [])]

/-- A file in which a section is a list. -/
def listedText : Bytes := Bytes.ofText "server = [\"0.0.0.0\", 9000, 2048]\n"

def listedEntries : Entries := [("server", .list [.text "0.0.0.0", .int 9000, .int 2048])]

namespace Mixed

theorem file : fileEntries [("queue.toml", mixedText)] (some "queue.toml") = .ok mixedEntries := by
  have read : Files.read [("queue.toml", mixedText)] "queue.toml" = some mixedText := by
    simp [Files.read]
  exact fileEntries_named read rfl rfl

theorem table {e : String × Value} (he : e ∈ mixedEntries) : ∃ inner, e.2 = .table inner := by
  simp only [mixedEntries, List.mem_cons, List.not_mem_nil, or_false] at he
  rcases he with rfl | rfl | rfl <;> exact ⟨_, rfl⟩

theorem plain : Plain mixedEntries where
  direct := by decide
  once := once_of_few (by decide)
  alone e he l _ whole := by
    obtain ⟨inner, same⟩ := table he
    exact absurd same (whole inner)

theorem sound {env : List (String × String)} (l : Leaf) : ¬l.Spoilt mixedEntries env := by
  rintro ⟨v, hv, -, misshapen, -⟩
  obtain ⟨inner, rfl⟩ := table hv
  exact misshapen (.table inner)

theorem governs {env : List (String × String)} {l : Leaf} {v : Value}
    (said : v ∈ l.sayings mixedEntries) (present : v ≠ .null) (unset : ∀ p ∈ env, ¬l.Named p.1) :
    l.Governs mixedEntries env v := by
  refine .file said present unset fun vs list => ?_
  obtain ⟨inner, same⟩ := table list
  cases same

theorem becomes (l : Leaf) :
    l.Becomes mixedEntries [("WORKQ_SERVER__PORT", "9001"), ("HOME", "/root")] (l.of
      { server := { host := "0.0.0.0", port := 9001 },
        storage := { flushOnInsert := false } }) := by
  have unset : ∀ l : Leaf, l ≠ .port →
      ∀ p ∈ [("WORKQ_SERVER__PORT", "9001"), ("HOME", "/root")], ¬l.Named p.1 := by decide +kernel
  cases l with
  | host =>
    exact .value (governs (List.mem_singleton_self _) (fun h => by cases h) (unset _ (by decide)))
      (.text _)
  | port =>
    have taken : Taken "9001" (.int 9001) :=
      .whole (Decimal.signedWord?_iff.mp (by decide +kernel))
    exact .value (.environment List.mem_cons_self (by decide +kernel) taken) (.int (by decide))
  | flushOnInsert =>
    exact .value (governs (List.mem_singleton_self _) (fun h => by cases h) (unset _ (by decide)))
      (.no (by decide +kernel))
  | maxPayloadBytes | path | level =>
    refine .default ?_
    rintro v (⟨set, named, -⟩ | ⟨said, -⟩)
    · exact absurd named (unset _ (by decide) _ set)
    · cases said

theorem unread (x : Leaf.port.type) : ¬Leaf.port.Reads (.text "many") x := by
  intro reads
  have refused : Value.toPort (.text "many") = .error .mismatch := by decide +kernel
  rw [← Leaf.convert_iff, Leaf.convert, refused] at reads
  cases reads

end Mixed

namespace Listed

theorem file :
    fileEntries [("queue.toml", listedText)] (some "queue.toml") = .ok listedEntries := by
  have read : Files.read [("queue.toml", listedText)] "queue.toml" = some listedText := by
    simp [Files.read]
  exact fileEntries_named read rfl rfl

theorem plain : Plain listedEntries where
  direct := by decide
  once := once_of_few (by decide)
  alone _ he _ _ _ _ he' _ := (List.mem_singleton.mp he').trans (List.mem_singleton.mp he).symm

theorem sound {env : List (String × String)} (l : Leaf) : ¬l.Spoilt listedEntries env := by
  rintro ⟨v, hv, -, misshapen, -⟩
  obtain ⟨home, rfl⟩ := Prod.mk.inj (List.mem_singleton.mp hv)
  cases l with
  | host | port | maxPayloadBytes => exact misshapen (.list (by decide))
  | path | flushOnInsert | level => exact absurd home (by decide)

theorem becomes (l : Leaf) :
    l.Becomes listedEntries [] (l.of { server := ⟨"0.0.0.0", 9000, 2048⟩ }) := by
  have governs : ∀ (l : Leaf) v, v ∈ l.sayings listedEntries → v ≠ .null →
      l.Governs listedEntries [] v := fun _ _ said present => .file said present (by simp) (by simp)
  cases l with
  | host => exact .value (governs _ _ (List.mem_singleton_self _) fun h => by cases h) (.text _)
  | port | maxPayloadBytes =>
    exact .value (governs _ _ (List.mem_singleton_self _) fun h => by cases h) (.int (by decide))
  | path | flushOnInsert | level =>
    refine .default ?_
    rintro v (⟨set, -, -⟩ | ⟨said, -⟩)
    · cases set
    · cases said

theorem becomes_beside (l : Leaf) : l.Becomes listedEntries [("workq_server.host", "h")]
    (l.of { server := { host := "h" } }) := by
  have named : Leaf.host.Named "workq_server.host" := by decide +kernel
  have unset : ∀ l : Leaf, l ≠ .host → ∀ p ∈ [("workq_server.host", "h")], ¬l.Named p.1 := by
    decide +kernel
  cases l with
  | host =>
    have noTruth : ∀ b : Bool, "h".map Char.toLower ≠ toString b := by decide +kernel
    have taken : Taken "h" (.text "h") := .plain ⟨noTruth, by decide +kernel⟩
    exact .value (.environment List.mem_cons_self named taken) (.text _)
  | port | maxPayloadBytes =>
    refine .default ?_
    rintro v (⟨set, named, -⟩ | ⟨-, -, -, kept⟩)
    · exact absurd named (unset _ (by decide) _ set)
    · exact kept _ (List.mem_singleton_self _) .host rfl _ List.mem_cons_self named
  | path | flushOnInsert | level =>
    refine .default ?_
    rintro v (⟨set, named, -⟩ | ⟨said, -⟩)
    · exact absurd named (unset _ (by decide) _ set)
    · cases said

end Listed

/-- A port that the environment sets does not have to be one in the file, and one that it does not
set has to be. A list is all there is of its section, up to the first variable for it. -/
theorem layers_merged :
    load [("queue.toml", mixedText)] [("WORKQ_SERVER__PORT", "9001"), ("HOME", "/root")]
      (some "queue.toml") = .ok
        { server := { host := "0.0.0.0", port := 9001 }, storage := { flushOnInsert := false } } ∧
    load [("queue.toml", mixedText)] [] (some "queue.toml") = .error .value ∧
    load [("queue.toml", listedText)] [] (some "queue.toml") = .ok
      { server := ⟨"0.0.0.0", 9000, 2048⟩ } ∧
    load [("queue.toml", listedText)] [("workq_server.host", "h")] (some "queue.toml") = .ok
      { server := { host := "h" } } := by
  have overridden : Apt mixedEntries [("WORKQ_SERVER__PORT", "9001"), ("HOME", "/root")] :=
    apt_of_leaves (by decide +kernel) (by decide +kernel)
  have bare : ∀ es, Apt es [] := fun es => apt_of_leaves (by simp) .nil
  have renamed : Apt listedEntries [("workq_server.host", "h")] :=
    apt_of_leaves (by decide +kernel) (List.pairwise_singleton _ _)
  refine ⟨?_, ?_, ?_, ?_⟩
  · obtain ⟨settles, -, -, -, loads⟩ := load_leafwise Mixed.plain overridden
    rw [loads _ _ Mixed.file, settles]
    exact ⟨Mixed.sound, Mixed.becomes⟩
  · obtain ⟨-, -, fails, -, loads⟩ := load_leafwise Mixed.plain (bare _)
    rw [loads _ _ Mixed.file]
    have governs : Leaf.port.Governs mixedEntries [] (.text "many") :=
      Mixed.governs (List.mem_singleton_self _) (fun h => by cases h) (by simp)
    exact fails ⟨.port, .inr ⟨_, governs, Mixed.unread⟩⟩
  · obtain ⟨settles, -, -, -, loads⟩ := load_leafwise Listed.plain (bare _)
    rw [loads _ _ Listed.file, settles]
    exact ⟨Listed.sound, Listed.becomes⟩
  · obtain ⟨settles, -, -, -, loads⟩ := load_leafwise Listed.plain renamed
    rw [loads _ _ Listed.file, settles]
    exact ⟨Listed.sound, Listed.becomes_beside⟩

/-- Setting one leaf in the environment can reset another one, if the file has a list of both. -/
theorem listed_siblings_reset :
    ¬∀ es env s s' (l : Leaf), (∀ p ∈ env, ¬l.Named p.1) → settings es [] = .ok s →
      settings es env = .ok s' → l.of s' = l.of s := by
  intro kept
  have alone : settings listedEntries [] = .ok { server := ⟨"0.0.0.0", 9000, 2048⟩ } := by
    decide +kernel
  have beside : settings listedEntries [("WORKQ_SERVER__HOST", "h")] =
      .ok { server := { host := "h" } } := by
    decide +kernel
  have same : (8080 : UInt16) = 9000 := kept _ _ _ _ .port (by decide +kernel) alone beside
  exact absurd same (by decide)

end TopicQueue.Config

import Mathlib.Data.List.TakeDrop
import Mathlib.Data.List.TakeWhile
import TopicQueue.Proofs.Layers

namespace TopicQueue.Config

namespace Leaf

/-- What a section says about a leaf: under its key, or in its place in a list. -/
def inside (l : Leaf) : Value → List Value
  | .table es => es.filterMap fun e => if e.1 = l.key then some e.2 else none
  | .list vs => vs[l.place]?.toList
  | _ => []

/-- What an entry at the top of a file says about a leaf. Its key is the name of the section, or
that of the leaf behind it and a dot. -/
def told (l : Leaf) (e : String × Value) : List Value :=
  if e.1 = l.home then l.inside e.2
  else if e.1 = l.home ++ "." ++ l.key then [e.2]
  else []

def sayings (l : Leaf) (es : Entries) : List Value := es.flatMap l.told

/-- Beginnings of keys that lead past a leaf: to an item of its section, or below the leaf. -/
def detours (l : Leaf) (gaps : List String) : List String :=
  (l.home ++ "[") ::
    gaps.flatMap fun gap => ("[" :: gaps).map fun next => l.home ++ gap ++ l.key ++ next

theorem detours_mem {l : Leaf} {gaps : List String} {gap next : String} (hgap : gap ∈ gaps)
    (hnext : next ∈ "[" :: gaps) : l.home ++ gap ++ l.key ++ next ∈ l.detours gaps :=
  List.mem_cons_of_mem _ (List.mem_flatMap.mpr ⟨gap, hgap, List.mem_map.mpr ⟨next, hnext, rfl⟩⟩)

def Strays (l : Leaf) (gaps : List String) (k : String) : Prop :=
  ∃ front ∈ l.detours gaps, front.toList <+: k.toList

/-- A key leads into the section of a leaf. -/
def Enters (l : Leaf) (gaps : List String) (k : String) : Prop :=
  ∃ gap ∈ gaps, (l.home ++ gap).toList <+: k.toList

instance (l : Leaf) (gaps : List String) (k : String) : Decidable (l.Strays gaps k) :=
  inferInstanceAs (Decidable (∃ front ∈ l.detours gaps, _))

instance (l : Leaf) (gaps : List String) (k : String) : Decidable (l.Enters gaps k) :=
  inferInstanceAs (Decidable (∃ gap ∈ gaps, _))

end Leaf

/-- A file sets each leaf once at most. A section that is no table is all that there is of it. -/
structure Plain (es : Entries) : Prop where
  direct : ∀ e ∈ es, ∀ l : Leaf, ¬l.Strays ["."] e.1
  once : ∀ l : Leaf, ∀ v ∈ l.sayings es, ∀ w ∈ l.sayings es, v = w
  alone : ∀ e ∈ es, ∀ l : Leaf, e.1 = l.home → (∀ inner, e.2 ≠ .table inner) →
    ∀ e' ∈ es, e'.1 = l.home ∨ l.Enters ["."] e'.1 → e' = e

namespace Path

theorem name?_append {cs rest : List Char} {n : String} (h : name? cs = some (n, rest)) :
    cs = n.toList ++ rest := by
  unfold name? at h
  rw [List.span_eq_takeWhile_dropWhile] at h
  have whole := List.takeWhile_append_dropWhile (p := isNameChar) (l := cs)
  generalize cs.takeWhile isNameChar = front, cs.dropWhile isNameChar = back at *
  cases front with
  | nil => cases h
  | cons c front =>
    cases h
    rw [← whole, String.toList_ofList]

theorem steps_cases {turns : Nat} {cs : List Char} {p : List Step} (h : steps turns cs = some p) :
    (p = [] ∧ cs = []) ∨
    (∃ n rest more turns', p = .key n :: more ∧ cs = '.' :: (n.toList ++ rest) ∧
      steps turns' rest = some more) ∨
    ∃ i more rest, p = .index i :: more ∧ cs = '[' :: rest := by
  cases cs with
  | nil =>
    rw [steps] at h
    cases h
    exact .inl ⟨rfl, rfl⟩
  | cons c cs =>
    right
    cases turns with
    | zero => cases h
    | succ turns =>
      unfold steps at h
      split at h
      · rename_i eq
        cases eq
      · cases ‹Nat.succ turns = 0›
      · rename_i same
        cases same
        split at h
        · cases h
        · rename_i n rest name
          obtain ⟨more, hmore, rfl⟩ := Option.map_eq_some_iff.mp h
          exact .inl ⟨n, rest, more, _, rfl, congrArg _ (name?_append name), hmore⟩
      · rename_i same
        cases same
        split at h
        · cases h
        · obtain ⟨more, -, rfl⟩ := Option.map_eq_some_iff.mp h
          exact .inr ⟨_, more, cs, rfl, rfl⟩
      · cases h

theorem parse_cases {k h : String} {p : List Step} (hp : parse k = .key h :: p) :
    (h = k ∧ p = []) ∨ ∃ rest turns, k.toList = h.toList ++ rest ∧ steps turns rest = some p := by
  unfold parse at hp
  split at hp
  · cases hp
    exact .inl ⟨rfl, rfl⟩
  · rename_i name
    split at hp
    · cases hp
      exact .inl ⟨rfl, rfl⟩
    · rename_i more
      cases hp
      exact .inr ⟨_, _, name?_append name, more⟩

/-- A key that neither names a section nor one of its leaves, and does not stray, leads beside both
the section and the leaf. -/
theorem parse_beside (l : Leaf) {k : String} (direct : ¬l.Strays ["."] k) (section' : k ≠ l.home)
    (leaf : k ≠ l.home ++ "." ++ l.key) :
    ∃ h p, parse k = .key h :: p ∧
      (h = l.home → l.Enters ["."] k ∧ ∃ k' p', p = .key k' :: p' ∧ k' ≠ l.key) := by
  obtain ⟨h, p, hp⟩ := parse_head k
  refine ⟨h, p, hp, ?_⟩
  rintro rfl
  obtain ⟨rfl, -⟩ | ⟨rest, turns, hk, hrest⟩ := parse_cases hp
  · exact absurd rfl section'
  obtain ⟨-, rfl⟩ | ⟨n, rest, more, turns, rfl, rfl, hmore⟩ | ⟨i, more, rest, rfl, rfl⟩ :=
    steps_cases hrest
  · refine absurd ?_ section'
    rw [← String.toList_inj, hk, List.append_nil]
  · refine ⟨⟨".", List.mem_cons_self, n.toList ++ rest, ?_⟩, n, more, rfl, ?_⟩
    · rw [hk, String.toList_append, List.append_assoc]
      rfl
    rintro rfl
    have written : k.toList = (l.home ++ "." ++ l.key).toList ++ rest := by
      rw [hk]
      simp
    obtain ⟨-, rfl⟩ | ⟨n, rest, more, turns, rfl, rfl, -⟩ | ⟨i, more, rest, rfl, rfl⟩ :=
      steps_cases hmore
    · refine leaf ?_
      rw [← String.toList_inj, written, List.append_nil]
    · refine direct ⟨l.home ++ "." ++ l.key ++ ".", Leaf.detours_mem List.mem_cons_self (by simp),
        n.toList ++ rest, ?_⟩
      rw [written]
      simp
    · refine direct ⟨l.home ++ "." ++ l.key ++ "[", Leaf.detours_mem List.mem_cons_self (by simp),
        rest, ?_⟩
      rw [written]
      simp
  · refine absurd ⟨l.home ++ "[", List.mem_cons_self, rest, ?_⟩ direct
    rw [hk, String.toList_append, List.append_assoc]
    rfl

theorem parse_home : ∀ l : Leaf, parse l.home = [.key l.home] := by decide

theorem parse_leaf : ∀ l : Leaf, parse (l.home ++ "." ++ l.key) = l.steps := by decide

end Path

/-- Equal values, or tables both. Laid over one another they stay that. -/
inductive Value.Alike : Value → Value → Prop
  | same (v : Value) : Alike v v
  | tables (es es' : Entries) : Alike (.table es) (.table es')

namespace Value.Alike

theorem onto (v w : Value) : Alike v (v.onto w) := by
  cases v with
  | table es =>
    rw [Value.onto]
    exact .tables _ _
  | null | bool | int | float | text | list => exact .same _

theorem convert {v w : Value} (h : Alike v w) (l : Leaf) : l.convert v = l.convert w := by
  cases h with
  | same => rfl
  | tables => cases l <;> rfl

theorem known {v w : Value} (h : Alike v w) : Option.Rel Alike v.known w.known := by
  cases h with
  | tables es es' => exact .some (.tables es es')
  | same =>
    cases v with
    | null => exact .none
    | bool | int | float | text | list | table => exact .some (.same _)

end Value.Alike

theorem look_entriesOnto (inner below : Entries) (key : String) :
    ((∀ e ∈ inner, e.1 ≠ key) ∧ (Value.entriesOnto inner below).look key = below.look key) ∨
    ∃ v w, (key, v) ∈ inner ∧ (Value.entriesOnto inner below).look key = some w ∧ v.Alike w := by
  induction inner generalizing below with
  | nil => exact .inl ⟨by simp, rfl⟩
  | cons e inner ih =>
    obtain ⟨k, v⟩ := e
    rw [Value.entriesOnto]
    obtain ⟨none', same⟩ | ⟨v', w, mem, found, alike⟩ := ih (below.alter k v.onto)
    · rw [same, Entries.look_alter]
      by_cases hk : k = key
      · subst hk
        exact .inr ⟨v, _, List.mem_cons_self, if_pos rfl, .onto v _⟩
      · rw [if_neg hk]
        exact .inl ⟨List.forall_mem_cons.mpr ⟨hk, none'⟩, rfl⟩
    · exact .inr ⟨v', w, List.mem_cons_of_mem _ mem, found, alike⟩

namespace Leaf

theorem mem_inside {l : Leaf} {inner : Entries} {v : Value} :
    v ∈ l.inside (.table inner) ↔ (l.key, v) ∈ inner := by
  simp only [inside, List.mem_filterMap]
  constructor
  · rintro ⟨e, he, found⟩
    split at found
    · rename_i hk
      cases found
      rwa [← hk]
    · cases found
  · exact fun h => ⟨_, h, if_pos rfl⟩

theorem given_known (l : Leaf) (root : Value) : l.given root =
    ((((root.entries.look l.home).getD .null).entries.look l.key).getD .null).known := by
  rw [given, Value.under_known]
  generalize (root.entries.look l.home).getD .null = v
  rw [← Value.under_known v l.key]
  cases v <;> rfl

theorem given_home (l : Leaf) (inner : Entries) (root : Value) :
    l.given (root.lay l.home (.table inner)) = (((Value.entriesOnto inner
      ((root.entries.look l.home).getD .null).entries).look l.key).getD .null).known := by
  rw [given_known, Value.lay, Path.parse_home, Value.under_alterAt_self]
  rfl

theorem tableAt_home (l : Leaf) (inner : Entries) (root : Value) :
    TableAt l.home (root.lay l.home (.table inner)) := by
  intro v hv
  rw [Value.lay, Path.parse_home, Value.under, Value.under_alterAt_self] at hv
  cases hv
  exact ⟨_, rfl⟩

theorem given_leaf (l : Leaf) (v root : Value) :
    ∃ w, l.given (root.lay (l.home ++ "." ++ l.key) v) = w.known ∧ v.Alike w := by
  refine ⟨v.onto ((((root.entries.look l.home).getD .null).entries.look l.key).getD .null), ?_,
    .onto v _⟩
  rw [given_known, Value.lay, Path.parse_leaf, steps, Value.under_alterAt_self, Option.getD_some,
    Value.under_alterAt_self]
  rfl

end Leaf

/-- What an entry leaves of a section that has been a table, unless it is no table itself. -/
theorem tableAt_entry {l : Leaf} {e : String × Value} (direct : ¬l.Strays ["."] e.1)
    (table : e.1 = l.home → ∃ inner, e.2 = .table inner) {root : Value}
    (tabular : TableAt l.home root) : TableAt l.home (root.lay e.1 e.2) := by
  obtain ⟨k, v⟩ := e
  by_cases section' : k = l.home
  · subst section'
    obtain ⟨inner, rfl⟩ := table rfl
    exact l.tableAt_home inner root
  by_cases leaf : k = l.home ++ "." ++ l.key
  · subst leaf
    rw [Value.lay, Path.parse_leaf]
    exact tabular.inside _ _ _ _
  obtain ⟨h, p, hp, beside⟩ := Path.parse_beside l direct section' leaf
  rw [Value.lay, hp]
  by_cases hh : h = l.home
  · obtain ⟨-, k', p', rfl, -⟩ := beside hh
    exact tabular.inside _ _ _ _
  · exact tabular.apart _ _ hh

theorem given_silent {l : Leaf} {e : String × Value} (direct : ¬l.Strays ["."] e.1)
    (table : e.1 = l.home → ∃ inner, e.2 = .table inner) (silent : l.told e = []) (root : Value) :
    l.given (root.lay e.1 e.2) = l.given root := by
  obtain ⟨k, v⟩ := e
  by_cases section' : k = l.home
  · subst section'
    obtain ⟨inner, rfl⟩ := table rfl
    have nothing : l.inside (.table inner) = [] := by simpa [Leaf.told] using silent
    rw [l.given_home, l.given_known]
    obtain ⟨-, same⟩ | ⟨v, -, mem, -⟩ := look_entriesOnto inner
      ((root.entries.look l.home).getD .null).entries l.key
    · rw [same]
    · rw [← Leaf.mem_inside, nothing] at mem
      cases mem
  by_cases leaf : k = l.home ++ "." ++ l.key
  · rw [Leaf.told, if_neg section', if_pos leaf] at silent
    cases silent
  obtain ⟨h, p, hp, beside⟩ := Path.parse_beside l direct section' leaf
  rw [Value.lay, hp]
  by_cases hh : h = l.home
  · obtain ⟨-, k', p', rfl, other⟩ := beside hh
    exact l.given_beside _ _ _ fun same => other same.2
  · exact l.given_apart _ _ _ hh

theorem given_told {l : Leaf} {e : String × Value} {v : Value}
    (table : e.1 = l.home → ∃ inner, e.2 = .table inner) (told : v ∈ l.told e)
    (once : ∀ w ∈ l.told e, w = v) (root : Value) :
    Option.Rel Value.Alike v.known (l.given (root.lay e.1 e.2)) := by
  obtain ⟨k, u⟩ := e
  by_cases section' : k = l.home
  · subst section'
    obtain ⟨inner, rfl⟩ := table rfl
    simp only [Leaf.told, if_true, Leaf.mem_inside] at told once
    rw [l.given_home]
    obtain ⟨nothing, -⟩ | ⟨w, w', mem, found, alike⟩ := look_entriesOnto inner
      ((root.entries.look l.home).getD .null).entries l.key
    · exact absurd rfl (nothing _ told)
    · obtain rfl := once w mem
      rw [found]
      exact alike.known
  by_cases leaf : k = l.home ++ "." ++ l.key
  · subst leaf
    obtain rfl : v = u := by simpa [Leaf.told, section'] using told
    obtain ⟨w, given, alike⟩ := l.given_leaf v root
    rw [given]
    exact alike.known
  · simp [Leaf.told, section', leaf] at told

theorem layEntries_cons (e : String × Value) (es : Entries) (root : Value) :
    layEntries (e :: es) root = layEntries es (root.lay e.1 e.2) := rfl

/-- What has been said of a leaf along the entries is nothing, or what is said by all of them. -/
theorem given_layEntries {es : Entries} {l : Leaf} (direct : ∀ e ∈ es, ¬l.Strays ["."] e.1)
    (tables : ∀ e ∈ es, e.1 = l.home → ∃ inner, e.2 = .table inner)
    (once : ∀ v ∈ l.sayings es, ∀ w ∈ l.sayings es, v = w) {said : Option Value} {root : Value}
    (same : ∀ u ∈ said, ∀ v ∈ l.sayings es, v = u) (tabular : TableAt l.home root)
    (given : Option.Rel Value.Alike (said.bind Value.known) (l.given root)) :
    TableAt l.home (layEntries es root) ∧ Option.Rel Value.Alike
      ((said.or (l.sayings es).head?).bind Value.known) (l.given (layEntries es root)) := by
  induction es generalizing said root with
  | nil =>
    rw [Leaf.sayings, List.flatMap_nil, List.head?_nil, Option.or_none]
    exact ⟨tabular, given⟩
  | cons e es ih =>
    obtain ⟨straight, direct⟩ := List.forall_mem_cons.mp direct
    obtain ⟨table, tables⟩ := List.forall_mem_cons.mp tables
    have split : l.sayings (e :: es) = l.told e ++ l.sayings es := List.flatMap_cons
    rw [split] at same once ⊢
    have ih := @ih direct tables fun v hv w hw =>
      once v (List.mem_append_right _ hv) w (List.mem_append_right _ hw)
    have tabular' := tableAt_entry straight table tabular
    rw [layEntries_cons]
    cases told : l.told e with
    | nil =>
      rw [told, List.nil_append] at same
      rw [List.nil_append]
      refine ih same tabular' ?_
      rw [given_silent straight table told]
      exact given
    | cons v vs =>
      have mem : v ∈ l.told e := by rw [told]; exact List.mem_cons_self
      have news : said.or (some v) = some v := by
        cases said with
        | none => rfl
        | some u => rw [same u rfl v (List.mem_append_left _ mem)]; rfl
      have all : ∀ w ∈ l.told e ++ l.sayings es, w = v := fun w hw =>
        once w hw v (List.mem_append_left _ mem)
      have given' := given_told table mem (fun w hw => all w (List.mem_append_left _ hw)) root
      have later := @ih (some v) _ (by
        rintro u ⟨⟩ w hw
        exact all w (List.mem_append_right _ hw)) tabular' given'
      rw [List.cons_append, List.head?_cons, news]
      exact later

/-- A file says about the leaves of a section that is given in tables what its entries say. -/
theorem given_tree {es : Entries} (plain : Plain es) {l : Leaf}
    (tables : ∀ e ∈ es, e.1 = l.home → ∃ inner, e.2 = .table inner) :
    TableAt l.home (tree es) ∧
      (∀ v ∈ l.sayings es, v ≠ .null → ∃ w, l.given (tree es) = some w ∧ v.Alike w) ∧
      ((∀ v ∈ l.sayings es, v = .null) → l.given (tree es) = none) := by
  obtain ⟨tabular, given⟩ := @given_layEntries es l (fun e he => plain.direct e he l) tables
    (plain.once l) none (.table []) (by simp) (fun v hv => by cases hv) .none
  rw [Option.none_or, ← tree] at given
  generalize l.given (tree es) = found at *
  refine ⟨tabular, fun v hv present => ?_, fun nulls => ?_⟩
  · have said : (l.sayings es).head?.bind Value.known = some v := by
      obtain ⟨u, hu⟩ := Option.isSome_iff_exists.mp (List.isSome_head?.mpr (List.ne_nil_of_mem hv))
      rw [hu, plain.once l u (List.mem_of_head? hu) v hv, Option.bind_some]
      cases v <;> first | rfl | exact absurd rfl present
    rw [said] at given
    cases given with
    | some alike => exact ⟨_, rfl, alike⟩
  · have nothing : (l.sayings es).head?.bind Value.known = none := by
      cases hu : (l.sayings es).head? with
      | none => rfl
      | some u => rw [nulls u (List.mem_of_head? hu)]; rfl
    rw [nothing] at given
    cases given
    rfl

/-- An entry that does not lead into a section leaves it alone. -/
theorem under_apart {l : Leaf} {e : String × Value} (direct : ¬l.Strays ["."] e.1)
    (section' : e.1 ≠ l.home) (outside : ¬l.Enters ["."] e.1) (root : Value) :
    (root.lay e.1 e.2).under l.home = root.under l.home := by
  have leaf : e.1 ≠ l.home ++ "." ++ l.key := fun same => by
    refine outside ⟨".", List.mem_cons_self, l.key.toList, ?_⟩
    rw [same, String.toList_append, String.toList_append, String.toList_append]
  obtain ⟨h, p, hp, beside⟩ := Path.parse_beside l direct section' leaf
  rw [Value.lay, hp]
  exact Value.under_alterAt h p _ root l.home fun hh => outside (beside hh).1

theorem under_whole {l : Leaf} {v : Value} (whole : ∀ inner, v ≠ .table inner) (root : Value) :
    (root.lay l.home v).under l.home = v.known := by
  rw [Value.lay, Path.parse_home, Value.under_known, Value.under_alterAt_self, Value.alterAt,
    Option.getD_some]
  cases v with
  | table inner => exact absurd rfl (whole inner)
  | null | bool | int | float | text | list => rfl

/-- A section that is given as something else than a table is that. -/
theorem under_tree {es : Entries} (plain : Plain es) {e : String × Value} (he : e ∈ es) {l : Leaf}
    (home : e.1 = l.home) (whole : ∀ inner, e.2 ≠ .table inner) :
    (tree es).under l.home = e.2.known := by
  have alone := plain.alone e he l home whole
  have direct := fun e he => plain.direct e he l
  have run : ∀ root : Value, e ∈ es ∨ root.under l.home = e.2.known →
      (layEntries es root).under l.home = e.2.known := by
    clear plain he
    induction es with
    | nil => exact fun root h => h.resolve_left List.not_mem_nil
    | cons e' es ih =>
      intro root h
      obtain ⟨straight, direct⟩ := List.forall_mem_cons.mp direct
      obtain ⟨only, alone⟩ := List.forall_mem_cons.mp alone
      rw [layEntries_cons]
      refine ih alone direct _ ?_
      by_cases touches : e'.1 = l.home ∨ l.Enters ["."] e'.1
      · right
        rw [only touches, home]
        exact under_whole whole root
      · obtain ⟨section', outside⟩ := not_or.mp touches
        rw [under_apart straight section' outside]
        refine h.imp_left fun mem => (List.mem_cons.mp mem).resolve_left ?_
        rintro rfl
        exact section' home
  exact run _ (.inl he)

end TopicQueue.Config

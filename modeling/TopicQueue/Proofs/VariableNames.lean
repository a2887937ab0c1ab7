import TopicQueue.Proofs.Sayings

namespace TopicQueue.Config

namespace Environment

/-- What stands between a section and a leaf in a variable's name. -/
def gaps : List String := ["__", "."]

/-- A variable's name is the prefix and a key, in whatever letters. -/
def Sets (name k : String) : Prop :=
  name.map (fun c => if c = '\u212A' then 'k' else c.toLower) = "workq_" ++ k

instance (name k : String) : Decidable (Sets name k) := inferInstanceAs (Decidable (_ = _))

theorem Sets.unique {name k k' : String} (h : Sets name k) (h' : Sets name k') : k = k' := by
  have same : "workq_" ++ k = "workq_" ++ k' := h.symm.trans h'
  rw [← String.toList_inj, String.toList_append, String.toList_append] at same
  exact String.toList_inj.mp (List.append_cancel_left same)

end Environment

def Leaf.Named (l : Leaf) (name : String) : Prop :=
  ∃ gap ∈ Environment.gaps, Environment.Sets name (l.home ++ gap ++ l.key)

instance (l : Leaf) (name : String) : Decidable (l.Named name) :=
  inferInstanceAs (Decidable (∃ gap ∈ Environment.gaps, _))

namespace Environment

theorem dotted_append {word t cs : List Char} (plain : '.' ∉ word) (h : dotted cs = word ++ t) :
    ∃ cs', cs = word ++ cs' ∧ dotted cs' = t := by
  induction word generalizing cs with
  | nil => exact ⟨cs, rfl, h⟩
  | cons c word ih =>
    obtain ⟨noDot, plainer⟩ := not_or.mp (mt List.mem_cons.mpr plain)
    unfold dotted at h
    split at h
    · exact absurd (List.cons.inj h).1 noDot
    · obtain ⟨rfl, more⟩ := List.cons.inj h
      obtain ⟨cs', rfl, rest⟩ := ih plainer more
      exact ⟨cs', rfl, rest⟩
    · cases h

theorem dotted_nil {cs : List Char} (h : dotted cs = []) : cs = [] := by
  unfold dotted at h
  split at h
  · cases h
  · cases h
  · rfl

theorem dotted_dot {cs t : List Char} (h : dotted cs = '.' :: t) :
    ∃ gap ∈ gaps, ∃ cs', cs = gap.toList ++ cs' ∧ dotted cs' = t := by
  unfold dotted at h
  split at h
  · rename_i cs
    exact ⟨"__", by simp [gaps], cs, rfl, (List.cons.inj h).2⟩
  · rename_i cs _
    obtain ⟨rfl, rest⟩ := List.cons.inj h
    exact ⟨".", by simp [gaps], cs, rfl, rest⟩
  · cases h

theorem dotted_bracket {cs t : List Char} (h : dotted cs = '[' :: t) : ∃ cs', cs = '[' :: cs' := by
  unfold dotted at h
  split at h
  · exact absurd (List.cons.inj h).1 (by decide)
  · obtain ⟨rfl, -⟩ := List.cons.inj h
    exact ⟨_, rfl⟩
  · cases h

theorem dotted_word {word cs : List Char} (plain : '.' ∉ word) (h : dotted cs = word) :
    cs = word := by
  rw [← List.append_nil word] at h
  obtain ⟨cs', rfl, rest⟩ := dotted_append plain h
  rw [dotted_nil rest, List.append_nil]

end Environment

theorem Leaf.no_dot : ∀ l : Leaf, '.' ∉ l.home.toList ∧ '.' ∉ l.key.toList := by decide

namespace Environment

/-- The key that is left of a variable's name once its gaps are dots. -/
def undotted (k : String) : String := String.ofList (dotted k.toList)

section Keys

variable {k : String} {l : Leaf}

theorem home_of_dotted {t : List Char} (h : dotted k.toList = (l.home ++ ".").toList ++ t) :
    ∃ gap ∈ gaps, ∃ cs, k.toList = (l.home ++ gap).toList ++ cs ∧ dotted cs = t := by
  rw [String.toList_append, List.append_assoc] at h
  obtain ⟨cs, hk, dot⟩ := dotted_append l.no_dot.1 h
  obtain ⟨gap, hgap, cs', rfl, rest⟩ := dotted_dot dot
  refine ⟨gap, hgap, cs', ?_, rest⟩
  rw [hk, String.toList_append, List.append_assoc]

theorem leaf_of_dotted {t : List Char}
    (h : dotted k.toList = (l.home ++ "." ++ l.key).toList ++ t) :
    ∃ gap ∈ gaps, ∃ cs, k.toList = (l.home ++ gap ++ l.key).toList ++ cs ∧ dotted cs = t := by
  rw [String.toList_append, List.append_assoc] at h
  obtain ⟨gap, hgap, cs, hk, key⟩ := home_of_dotted h
  obtain ⟨cs', rfl, rest⟩ := dotted_append l.no_dot.2 key
  refine ⟨gap, hgap, cs', ?_, rest⟩
  rw [hk, String.toList_append (s := l.home ++ gap), List.append_assoc]

theorem enters_of_dotted (h : l.Enters ["."] (undotted k)) : l.Enters gaps k := by
  obtain ⟨gap, hgap, t, ht⟩ := h
  obtain rfl := List.mem_singleton.mp hgap
  rw [undotted, String.toList_ofList] at ht
  obtain ⟨gap, hgap, cs, hk, -⟩ := home_of_dotted ht.symm
  exact ⟨gap, hgap, cs, hk.symm⟩

theorem strays_of_dotted (h : l.Strays ["."] (undotted k)) : l.Strays gaps k := by
  obtain ⟨front, hfront, t, ht⟩ := h
  rw [undotted, String.toList_ofList] at ht
  simp only [Leaf.detours, List.flatMap_cons, List.flatMap_nil, List.map_cons, List.map_nil,
    List.append_nil, List.mem_cons, List.not_mem_nil, or_false] at hfront
  rcases hfront with rfl | rfl | rfl
  · rw [String.toList_append, List.append_assoc] at ht
    obtain ⟨cs, hk, bracket⟩ := dotted_append l.no_dot.1 ht.symm
    obtain ⟨cs', rfl⟩ := dotted_bracket bracket
    refine ⟨l.home ++ "[", List.mem_cons_self, cs', ?_⟩
    rw [hk, String.toList_append, List.append_assoc]
    rfl
  · rw [String.toList_append, List.append_assoc] at ht
    obtain ⟨gap, hgap, cs, hk, bracket⟩ := leaf_of_dotted ht.symm
    obtain ⟨cs', rfl⟩ := dotted_bracket bracket
    refine ⟨l.home ++ gap ++ l.key ++ "[", Leaf.detours_mem hgap List.mem_cons_self, cs', ?_⟩
    rw [hk, String.toList_append (s := l.home ++ gap ++ l.key), List.append_assoc]
    rfl
  · rw [String.toList_append, List.append_assoc] at ht
    obtain ⟨gap, hgap, cs, hk, dot⟩ := leaf_of_dotted ht.symm
    obtain ⟨next, hnext, cs', rfl, -⟩ := dotted_dot dot
    refine ⟨l.home ++ gap ++ l.key ++ next,
      Leaf.detours_mem hgap (List.mem_cons_of_mem _ hnext), cs', ?_⟩
    rw [hk, String.toList_append (s := l.home ++ gap ++ l.key), List.append_assoc]

theorem path?_iff {name p : String} : path? name = some p ↔ ∃ k, Sets name k ∧ p = undotted k := by
  have prefix' : ∀ rest, start ++ rest = (lowered name).toList ↔
      Sets name (String.ofList rest) := fun rest => by
    rw [Sets, ← String.toList_inj, String.toList_append,
      String.toList_ofList (l := rest)]
    exact eq_comm
  simp only [path?]
  constructor
  · intro h
    split at h
    · rename_i starts
      cases h
      obtain ⟨rest, same⟩ := List.isPrefixOf_iff_prefix.mp starts
      refine ⟨String.ofList rest, (prefix' rest).mp same, ?_⟩
      rw [← same, List.drop_left, undotted, String.toList_ofList]
    · cases h
  · rintro ⟨k, sets, rfl⟩
    have same := (prefix' k.toList).mpr (by rwa [String.ofList_toList])
    rw [← same, if_pos (List.isPrefixOf_iff_prefix.mpr ⟨_, rfl⟩), List.drop_left, undotted]

theorem undotted_leaf : ∀ l : Leaf, ∀ gap ∈ gaps,
    undotted (l.home ++ gap ++ l.key) = l.home ++ "." ++ l.key := by
  decide

theorem home_of_undotted (h : undotted k = l.home) : k = l.home := by
  rw [undotted, ← String.toList_inj, String.toList_ofList] at h
  exact String.toList_inj.mp (dotted_word l.no_dot.1 h)

theorem leaf_of_undotted (h : undotted k = l.home ++ "." ++ l.key) :
    ∃ gap ∈ gaps, k = l.home ++ gap ++ l.key := by
  rw [undotted, ← String.toList_inj, String.toList_ofList] at h
  obtain ⟨gap, hgap, cs, hk, rest⟩ := leaf_of_dotted (h.trans (List.append_nil _).symm)
  rw [dotted_nil rest, List.append_nil] at hk
  exact ⟨gap, hgap, String.toList_inj.mp hk⟩

end Keys

/-- The way to a leaf is its key's alone. -/
theorem parse_eq_steps {p : String} {l : Leaf} (h : Path.parse p = l.steps) :
    p = l.home ++ "." ++ l.key := by
  obtain ⟨-, nothing⟩ | ⟨rest, turns, hp, hrest⟩ := Path.parse_cases h
  · cases nothing
  obtain ⟨nothing, -⟩ | ⟨n, rest, more, turns, same, rfl, hmore⟩ | ⟨_, _, _, other, -⟩ :=
    Path.steps_cases hrest
  · cases nothing
  · cases same
    obtain ⟨-, rfl⟩ | ⟨_, _, _, _, nothing, -⟩ | ⟨_, _, _, nothing, -⟩ := Path.steps_cases hmore
    · rw [← String.toList_inj, hp]
      simp
    · cases nothing
    · cases nothing
  · cases other

theorem named_iff {l : Leaf} {name : String} : l.Named name ↔ steps? name = some l.steps := by
  rw [steps?, Option.map_eq_some_iff]
  constructor
  · rintro ⟨gap, hgap, sets⟩
    refine ⟨_, path?_iff.mpr ⟨_, sets, rfl⟩, ?_⟩
    rw [undotted_leaf l gap hgap, Path.parse_leaf]
  · rintro ⟨p, hp, way⟩
    obtain ⟨k, sets, rfl⟩ := path?_iff.mp hp
    obtain ⟨gap, hgap, rfl⟩ := leaf_of_undotted (parse_eq_steps way)
    exact ⟨gap, hgap, sets⟩

end Environment

end TopicQueue.Config

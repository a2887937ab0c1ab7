import Mathlib.Data.List.TakeDrop
import Mathlib.Data.List.TakeWhile
import TopicQueue.Proofs.Layers
import TopicQueue.Proofs.Numerals

namespace TopicQueue.Config

open Decimal Leaf

theorem sign_cases (cs : List Char) :
    cs = (sign cs).2 ∨ cs = '-' :: (sign cs).2 ∨ cs = '+' :: (sign cs).2 := by
  unfold sign
  split
  · exact .inr (.inl rfl)
  · exact .inr (.inr rfl)
  · exact .inl rfl

/-- A character of a floating-point number that is written in digits. -/
def isFloatChar (c : Char) : Bool := c.isDigit || ['+', '-', '.', 'e', 'E'].contains c

theorem isFloatChar_of_digit {c : Char} (h : c.isDigit = true) : isFloatChar c = true := by
  simp [isFloatChar, h]

/-- The words for numbers that no digits write. -/
def floatWords : List String := ["inf", "infinity", "nan"]

theorem mem_span {α : Type} (p : α → Bool) (l : List α) :
    l = (l.span p).1 ++ (l.span p).2 ∧ ∀ a ∈ (l.span p).1, p a = true := by
  rw [List.span_eq_takeWhile_dropWhile]
  exact ⟨(List.takeWhile_append_dropWhile).symm, fun _ ha => List.mem_takeWhile_imp ha⟩

theorem decimalDigits_chars {cs rest : List Char} {r : Nat × Int}
    (h : decimalDigits cs = some (r, rest)) :
    ∃ front, cs = front ++ rest ∧ ∀ c ∈ front, isFloatChar c = true := by
  obtain ⟨hcs, hwhole⟩ := mem_span Char.isDigit cs
  have hfront : ∀ c ∈ (cs.span Char.isDigit).1, isFloatChar c = true := fun c hc =>
    isFloatChar_of_digit (hwhole c hc)
  unfold decimalDigits at h
  simp only [] at h
  split at h
  · rename_i tail point
    obtain ⟨htail, hfraction⟩ := mem_span Char.isDigit tail
    rw [point] at hcs
    split at h
    · cases h
    · cases h
      refine ⟨(cs.span Char.isDigit).1 ++ '.' :: (tail.span Char.isDigit).1, ?_, ?_⟩
      · rw [List.append_assoc, List.cons_append, ← htail, ← hcs]
      simp only [List.mem_append, List.mem_cons]
      rintro c (hc | rfl | hc)
      · exact hfront c hc
      · decide
      · exact isFloatChar_of_digit (hfraction c hc)
  · split at h
    · cases h
    · cases h
      exact ⟨_, hcs, hfront⟩

theorem exponent?_chars {cs : List Char} {e : Int} (h : exponent? cs = some e) :
    ∀ c ∈ cs, isFloatChar c = true := by
  cases cs with
  | nil => simp
  | cons mark cs =>
    simp only [exponent?] at h
    split at h
    · rename_i fits
      simp only [Bool.and_eq_true, Bool.or_eq_true, decide_eq_true_eq] at fits
      obtain ⟨hmark, numeral⟩ := fits
      have digits := fun c hc => isFloatChar_of_digit ((isNumeral_iff.mp numeral).2 c hc)
      have hcs : ∀ c ∈ cs, isFloatChar c = true := by
        rcases sign_cases cs with hs | hs | hs <;> rw [hs]
        · exact digits
        · exact List.forall_mem_cons.mpr ⟨by decide, digits⟩
        · exact List.forall_mem_cons.mpr ⟨by decide, digits⟩
      refine List.forall_mem_cons.mpr ⟨?_, hcs⟩
      rcases hmark with rfl | rfl <;> decide
    · cases h

theorem floatingNumber?_chars {s : String} {d : Double} (h : floatingNumber? s = some d) :
    (String.ofList (sign s.toList).2).map Char.toLower ∈ floatWords ∨
      ∀ c ∈ s.toList, isFloatChar c = true := by
  have signed : (∀ c ∈ (sign s.toList).2, isFloatChar c = true) →
      ∀ c ∈ s.toList, isFloatChar c = true := by
    intro hcs
    rcases sign_cases s.toList with hs | hs | hs <;> rw [hs]
    · exact hcs
    · exact List.forall_mem_cons.mpr ⟨by decide, hcs⟩
    · exact List.forall_mem_cons.mpr ⟨by decide, hcs⟩
  unfold floatingNumber? at h
  simp only [] at h
  split at h
  · rename_i word
    left
    simp only [Bool.or_eq_true, decide_eq_true_eq] at word
    rcases word with word | word <;> simp [floatWords, word]
  · split at h
    · rename_i word
      left
      simp [floatWords, word]
    · right
      split at h
      · cases h
      · rename_i r rest hdigits
        obtain ⟨front, hcs, hfront⟩ := decimalDigits_chars hdigits
        obtain ⟨e, he, -⟩ := Option.map_eq_some_iff.mp h
        refine signed fun c hc => ?_
        rw [hcs] at hc
        rcases List.mem_append.mp hc with hc | hc
        · exact hfront c hc
        · exact exponent?_chars he c hc

/-- A truth value's word, in any letters. -/
def IsTruth (v : String) (b : Bool) : Prop := v.map Char.toLower = toString b

instance (v : String) (b : Bool) : Decidable (IsTruth v b) := inferInstanceAs (Decidable (_ = _))

/-- A numeral of a whole number of 64 bits with a sign. -/
def IsWhole (v : String) (i : Int) : Prop :=
  Whole v.toList i ∧ -(Limit.bits63 : Int) ≤ i ∧ i < (Limit.bits63 : Int)

/-- A floating-point number that is no such numeral. -/
def IsReal (v : String) (d : Double) : Prop :=
  floatingNumber? v = some d ∧ ∀ i, ¬IsWhole v i

/-- Neither a truth value nor a number. -/
def IsPlain (v : String) : Prop := (∀ b, ¬IsTruth v b) ∧ floatingNumber? v = none

theorem decimalDigits_numeral {ds : List Char} (numeral : isNumeral ds = true) :
    decimalDigits ds = some ((natural ds, 0), []) := by
  obtain ⟨nonempty, digits⟩ := isNumeral_iff.mp numeral
  have all : ds.span Char.isDigit = (ds, []) := by
    rw [List.span_eq_takeWhile_dropWhile, List.takeWhile_eq_self_iff.mpr digits,
      List.dropWhile_eq_nil_iff.mpr digits]
  have some' : ds.isEmpty = false := by simpa using nonempty
  simp only [decimalDigits, all, some', Bool.false_and, List.append_nil]
  rfl

/-- Numerals of whatever size are floating-point numbers too. -/
theorem float_of_whole {v : String} {i : Int} (h : Whole v.toList i) :
    ∃ d, floatingNumber? v = some d := by
  obtain ⟨numeral, -⟩ := whole_iff.mp h
  unfold floatingNumber?
  simp only []
  split
  · exact ⟨_, rfl⟩
  split
  · exact ⟨_, rfl⟩
  rw [decimalDigits_numeral numeral]
  exact ⟨_, rfl⟩

theorem toLower_digit {c : Char} (h : c.isDigit = true) : c.toLower = c := by
  have high : c.toNat ≤ '9'.toNat := (Char.isDigit_iff_toNat.mp h).2
  refine dif_neg fun upper => ?_
  have low : 'A'.toNat ≤ c.toNat := UInt32.le_iff_toNat_le.mp upper.1
  exact absurd (Nat.le_trans low high) (by decide)

theorem toLower_floatChar {c : Char} (h : isFloatChar c = true) :
    c.toLower ≠ 't' ∧ c.toLower ≠ 'f' := by
  simp only [isFloatChar, Bool.or_eq_true, List.contains_iff_mem, List.mem_cons,
    List.not_mem_nil, or_false] at h
  rcases h with digit | rfl | rfl | rfl | rfl | rfl
  · rw [toLower_digit digit]
    constructor <;> (rintro rfl; exact absurd digit (by decide))
  all_goals decide

/-- A truth value's word is no number. -/
theorem IsTruth.not_float {v : String} {b : Bool} (h : IsTruth v b) : floatingNumber? v = none := by
  have chars : v.toList.map Char.toLower = (toString b).toList := by
    rw [← h, String.toList_map]
  cases hf : floatingNumber? v with
  | none => rfl
  | some d =>
    exfalso
    rcases floatingNumber?_chars hf with word | digits
    · rcases sign_cases v.toList with bare | minus | plus
      · rw [← bare, String.ofList_toList, h] at word
        revert word
        cases b <;> decide
      · rw [minus] at chars
        cases b <;> exact absurd (List.cons.inj chars).1 (by decide)
      · rw [plus] at chars
        cases b <;> exact absurd (List.cons.inj chars).1 (by decide)
    · cases hv : v.toList with
      | nil =>
        rw [hv] at chars
        cases b <;> exact absurd chars (by decide)
      | cons c cs =>
        have hc := toLower_floatChar (digits c (by rw [hv]; exact List.mem_cons_self))
        rw [hv] at chars
        cases b
        · exact hc.2 (List.cons.inj chars).1
        · exact hc.1 (List.cons.inj chars).1

namespace Environment

theorem value_truth {v : String} {b : Bool} (h : IsTruth v b) : value v = .bool b := by
  unfold IsTruth at h
  cases b <;> simp [value, h, toString]

theorem word_of_float {v : String} {d : Double} (h : floatingNumber? v = some d) :
    v.map Char.toLower ≠ "true" ∧ v.map Char.toLower ≠ "false" := by
  constructor <;> intro word
  · have truth : IsTruth v true := word
    rw [truth.not_float] at h
    cases h
  · have truth : IsTruth v false := word
    rw [truth.not_float] at h
    cases h

theorem value_whole {v : String} {i : Int} (h : IsWhole v i) : value v = .int i := by
  obtain ⟨d, hd⟩ := float_of_whole h.1
  obtain ⟨notTrue, notFalse⟩ := word_of_float hd
  simp [value, notTrue, notFalse, signedWord?_iff.mpr h]

theorem value_real {v : String} {d : Double} (h : IsReal v d) : value v = .float d := by
  obtain ⟨notTrue, notFalse⟩ := word_of_float h.1
  have notWhole : signedWord? v = none :=
    Option.eq_none_iff_forall_ne_some.mpr fun i hi => h.2 i (signedWord?_iff.mp hi)
  simp [value, notTrue, notFalse, notWhole, h.1]

theorem value_plain {v : String} (h : IsPlain v) : value v = .text v := by
  obtain ⟨noTruth, noFloat⟩ := h
  have notTrue : v.map Char.toLower ≠ "true" := noTruth true
  have notFalse : v.map Char.toLower ≠ "false" := noTruth false
  have notWhole : signedWord? v = none := by
    refine Option.eq_none_iff_forall_ne_some.mpr fun i hi => ?_
    obtain ⟨d, hd⟩ := float_of_whole (signedWord?_iff.mp hi).1
    rw [hd] at noFloat
    cases noFloat
  simp [value, notTrue, notFalse, notWhole, noFloat]

end Environment

/-- Every text is just one of these. -/
theorem taken_cases (v : String) :
    (∃ b, IsTruth v b) ∨ (∃ i, IsWhole v i) ∨ (∃ d, IsReal v d) ∨ IsPlain v := by
  by_cases truth : ∃ b, IsTruth v b
  · exact .inl truth
  by_cases whole : ∃ i, IsWhole v i
  · exact .inr (.inl whole)
  cases hf : floatingNumber? v with
  | some d => exact .inr (.inr (.inl ⟨d, hf, not_exists.mp whole⟩))
  | none => exact .inr (.inr (.inr ⟨not_exists.mp truth, hf⟩))

/-- What a setting that is a text gets from a variable's text. -/
inductive Shows (v : String) : String → Prop
  | truth {b : Bool} : IsTruth v b → Shows v (toString b)
  | whole {i : Int} : IsWhole v i → Shows v (toString i)
  | real {d : Double} : IsReal v d → Shows v d.text
  | plain : IsPlain v → Shows v v

/-- What a setting that is a number gets from a variable's text, as far as it gets anything. -/
inductive Counts (v : String) : Nat → Prop
  | truth {b : Bool} : IsTruth v b → Counts v b.toNat
  | whole {n : Nat} : IsWhole v n → Counts v n
  | real {d : Double} : IsReal v d → Counts v d.toWord
  | yes : IsPlain v → v.map Char.toLower ∈ ["on", "yes"] → Counts v 1
  | no : IsPlain v → v.map Char.toLower ∈ ["off", "no"] → Counts v 0

/-- The texts that a setting that is a text gets as they are. -/
def Verbatim (v : String) : Prop :=
  IsPlain v ∨ (∃ b : Bool, v = toString b) ∨ (∃ i, IsWhole v i ∧ Canonical v.toList) ∨
    ∃ d, IsReal v d ∧ d.text = v

theorem Verbatim.shows {v : String} (h : Verbatim v) : Shows v v := by
  rcases h with plain | ⟨b, rfl⟩ | ⟨i, whole, canonical⟩ | ⟨d, real, same⟩
  · exact .plain plain
  · exact .truth (by cases b <;> decide +kernel)
  · have shown := Shows.whole whole
    rwa [whole.1.toString_eq_iff.mpr canonical] at shown
  · have shown := Shows.real real
    rwa [same] at shown

namespace Environment

/-- A variable, and no other that counts. -/
structure Lone (env : List (String × String)) (name text : String) : Prop where
  split : ∃ before after, env = before ++ (name, text) :: after ∧
    ∀ p ∈ before ++ after, path? p.1 = none

theorem Lone.tidy {env : List (String × String)} {name text : String} (lone : Lone env name text)
    {l : Leaf} (names : steps? name = some l.steps) : Tidy env := by
  obtain ⟨before, after, rfl, others⟩ := lone.split
  have nothing : ∀ p ∈ before ++ after, steps? p.1 = none := fun p hp => by
    rw [steps?, others p hp]
    rfl
  refine ⟨fun p hp way hw => ?_, ?_⟩
  · rcases List.mem_append.mp hp with hp | hp
    · rw [nothing p (List.mem_append_left _ hp)] at hw
      cases hw
    · rcases List.mem_cons.mp hp with rfl | hp
      · rw [names] at hw
        exact .inl ⟨l, (Option.some.inj hw).symm⟩
      · rw [nothing p (List.mem_append_right _ hp)] at hw
        cases hw
  · have clear : ∀ p q : String × String, steps? p.1 = none ∨ steps? q.1 = none →
        ∀ l : Leaf, steps? p.1 = some l.steps → steps? q.1 ≠ some l.steps := by
      rintro p q (h | h) l hp hq
      · rw [h] at hp
        cases hp
      · rw [h] at hq
        cases hq
    have quiet : ∀ l : List (String × String), (∀ p ∈ l, steps? p.1 = none) →
        l.Pairwise fun p q => ∀ l : Leaf, steps? p.1 = some l.steps → steps? q.1 ≠ some l.steps :=
      fun l hl => List.pairwise_of_forall_mem_list fun p hp q _ => clear p q (.inl (hl p hp))
    refine List.pairwise_append.mpr
      ⟨quiet before fun p hp => nothing p (List.mem_append_left _ hp), ?_, ?_⟩
    · exact List.pairwise_cons.mpr
        ⟨fun q hq => clear _ q (.inr (nothing q (List.mem_append_right _ hq))),
          quiet after fun p hp => nothing p (List.mem_append_right _ hp)⟩
    · exact fun p hp q _ => clear p q (.inl (nothing p (List.mem_append_left _ hp)))

end Environment

/-- What a leaf holds, of those that are texts. -/
def Leaf.text? : Leaf → Settings → Option String
  | host, s => some s.server.host
  | path, s => some s.storage.path
  | level, s => some s.logging.level
  | port, _ | maxPayloadBytes, _ | flushOnInsert, _ => none

/-- What a leaf holds, of those that are numbers. -/
def Leaf.number? : Leaf → Settings → Option Nat
  | port, s => some s.server.port.toNat
  | maxPayloadBytes, s => some s.server.maxPayloadBytes.toNat
  | host, _ | path, _ | flushOnInsert, _ | level, _ => none

/-- The leaves that are texts. -/
def texts : List Leaf := [host, path, level]

theorem Counts.lt {v : String} {n : Nat} (h : Counts v n) : n < Limit.bits64 := by
  have : Limit.bits63 < Limit.bits64 := by decide
  cases h with
  | truth _ => exact Nat.lt_of_le_of_lt (Bool.toNat_le _) (by decide)
  | whole whole =>
    have := whole.2.2
    omega
  | @real d _ =>
    have clamped : d.toWord ≤ Limit.bits64 - 1 := by
      cases d with
      | nan => exact Nat.zero_le _
      | infinite negative => cases negative <;> simp [Double.toWord]
      | finite negative m e =>
        cases negative
        · exact Nat.min_le_right _ _
        · exact Nat.zero_le _
    exact Nat.lt_of_le_of_lt clamped (by decide)
  | yes _ _ => decide
  | no _ _ => decide

section Lone

variable {env : List (String × String)} {name v : String} {es : Entries} {l : Leaf} {s : Settings}

end Lone

end TopicQueue.Config

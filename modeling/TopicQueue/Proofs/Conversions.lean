import TopicQueue.Proofs.Doubles
import TopicQueue.Proofs.EnvironmentTexts

namespace TopicQueue

theorem toLower_eq (s : String) : s.toLower = s.map Char.toLower := rfl

/-- Numerals have no letters. -/
theorem Decimal.Numeral.toLower {n : Nat} {s : String} (h : Decimal.Numeral n s) :
    s.toLower = s := by
  have digit : ∀ zeros, ∀ c ∈ List.replicate zeros '0' ++ Nat.toDigits 10 n, c.toLower = c :=
    fun zeros c hc => Config.toLower_digit
      ((Decimal.isNumeral_iff.mp (Decimal.digits_iff.mpr ⟨zeros, rfl⟩).1).2 c hc)
  have chars : ∀ c ∈ s.toList, c.toLower = c := by
    obtain ⟨zeros, bare | plus⟩ := Decimal.Numeral.chars.mp h
    · rw [bare]
      exact digit zeros
    · rw [plus]
      exact List.forall_mem_cons.mpr ⟨by decide, digit zeros⟩
  rw [toLower_eq, ← String.toList_inj, String.toList_map, List.map_congr_left chars,
    List.map_id']

namespace Config

namespace Value

inductive AsText : Value → String → Prop
  | text (s : String) : AsText (.text s) s
  | yes : AsText (.bool true) "true"
  | no : AsText (.bool false) "false"
  | int (i : Int) : AsText (.int i) (toString i)
  | float (d : Double) : AsText (.float d) d.text

/-- Truth values, numbers that are zero or not, and words for yes and no in any letters. -/
inductive AsBool : Value → Bool → Prop
  | bool (b : Bool) : AsBool (.bool b) b
  | zero : AsBool (.int 0) false
  | nonzero {i : Int} (h : i ≠ 0) : AsBool (.int i) true
  | floatZero (negative : Bool) (e : Int) : AsBool (.float (.finite negative 0 e)) false
  | float {m : Nat} (negative : Bool) (e : Int) (h : m ≠ 0) :
      AsBool (.float (.finite negative m e)) true
  | infinite (negative : Bool) : AsBool (.float (.infinite negative)) true
  | nan : AsBool (.float .nan) true
  | one : AsBool (.text "1") true
  | nought : AsBool (.text "0") false
  | yes {s : String} (h : s.toLower ∈ ["true", "on", "yes"]) : AsBool (.text s) true
  | no {s : String} (h : s.toLower ∈ ["false", "off", "no"]) : AsBool (.text s) false

/-- Natural numbers below 2^64, the ones next to a double, and words for yes and no. -/
inductive AsNumber : Value → Nat → Prop
  | int {n : Nat} (fits : n < 2 ^ 64) : AsNumber (.int n) n
  | float {d : Double} {n : Nat} (h : d.Rounds n) : AsNumber (.float d) n
  | true : AsNumber (.bool true) 1
  | false : AsNumber (.bool false) 0
  | yes {s : String} (h : s.toLower ∈ ["true", "on", "yes"]) : AsNumber (.text s) 1
  | no {s : String} (h : s.toLower ∈ ["false", "off", "no"]) : AsNumber (.text s) 0
  | text {s : String} {n : Nat} (h : Decimal.Numeral n s) (fits : n < 2 ^ 64) :
      AsNumber (.text s) n

theorem isYes_iff {s : String} : isYes s = true ↔ s.toLower ∈ ["true", "on", "yes"] :=
  List.contains_iff_mem

theorem isNo_iff {s : String} : isNo s = true ↔ s.toLower ∈ ["false", "off", "no"] :=
  List.contains_iff_mem

/-- No word is for yes and for no. -/
theorem isYes_of_isNo {s : String} (h : isNo s = true) : isYes s = false := by
  rw [isNo_iff, toLower_eq] at h
  rw [isYes]
  simp only [List.mem_cons, List.not_mem_nil, or_false] at h
  rcases h with h | h | h <;> rw [h] <;> rfl

theorem toText_iff {v : Value} {s : String} : v.toText = .ok s ↔ v.AsText s := by
  constructor
  · intro h
    cases v with
    | null | list | table => cases h
    | bool b =>
      cases h
      cases b
      · exact .no
      · exact .yes
    | int i =>
      cases h
      exact .int i
    | float d =>
      cases h
      exact .float d
    | text =>
      cases h
      exact .text s
  · intro h
    cases h <;> rfl

theorem toBool_iff {v : Value} {b : Bool} : v.toBool = .ok b ↔ v.AsBool b := by
  constructor
  · intro h
    cases v with
    | null | list | table => cases h
    | bool =>
      cases h
      exact .bool b
    | int i =>
      cases h
      by_cases zero : i = 0
      · subst zero
        exact .zero
      · simpa [zero] using AsBool.nonzero zero
    | float d =>
      cases h
      match d with
      | .nan => exact .nan
      | .infinite negative => exact .infinite negative
      | .finite negative 0 e => exact .floatZero negative e
      | .finite negative (m + 1) e => exact .float negative e (Nat.succ_ne_zero m)
    | text s =>
      rw [toBool] at h
      split at h
      · rename_i word
        cases h
        rcases Bool.or_eq_true_iff.mp word with one | yes
        · obtain rfl := of_decide_eq_true one
          exact .one
        · exact .yes (isYes_iff.mp yes)
      · split at h
        · rename_i word
          cases h
          rcases Bool.or_eq_true_iff.mp word with nought | no
          · obtain rfl := of_decide_eq_true nought
            exact .nought
          · exact .no (isNo_iff.mp no)
        · cases h
  · intro h
    cases h with
    | bool | zero | floatZero | infinite | nan => rfl
    | nonzero h => simp [toBool, h]
    | @float m _ _ h =>
      obtain ⟨m, rfl⟩ := Nat.exists_eq_succ_of_ne_zero h
      rfl
    | one | nought => decide +kernel
    | yes h => simp [toBool, isYes_iff.mpr h]
    | @no s h =>
      have word := isNo_iff.mpr h
      have notOne : s ≠ "1" := by
        rintro rfl
        exact absurd word (by decide +kernel)
      simp [toBool, notOne, isYes_of_isNo word, word]

/-- A numeral is none of the words that stand for a truth value. -/
theorem word_of_natural? {s : String} {n : Nat} (read : Decimal.natural? Limit.bits64 s = some n) :
    isYes s = false ∧ isNo s = false := by
  obtain ⟨numeral, -⟩ := Decimal.natural?_iff.mp read
  have noWord : ∀ w ∈ ["true", "on", "yes"] ++ ["false", "off", "no"],
      Decimal.natural? Limit.bits64 w = none := by decide +kernel
  constructor
  · refine Bool.eq_false_iff.mpr fun yes => ?_
    have word := isYes_iff.mp yes
    rw [numeral.toLower] at word
    rw [noWord s (List.mem_append_left _ word)] at read
    cases read
  · refine Bool.eq_false_iff.mpr fun no => ?_
    have word := isNo_iff.mp no
    rw [numeral.toLower] at word
    rw [noWord s (List.mem_append_right _ word)] at read
    cases read

theorem toWord_iff {v : Value} {n : Nat} : v.toWord = .ok n ↔ v.AsNumber n := by
  constructor
  · intro h
    cases v with
    | null | list | table => cases h
    | bool b =>
      cases h
      cases b
      · exact .false
      · exact .true
    | int i =>
      rw [toWord] at h
      split at h
      · rename_i natural
        obtain ⟨m, rfl⟩ := Int.eq_ofNat_of_zero_le natural.1
        cases h
        exact .int (Int.ofNat_lt.mp natural.2)
      · cases h
    | float d =>
      cases h
      exact .float (Double.toWord_eq_iff.mp rfl)
    | text s =>
      rw [toWord] at h
      split at h
      · cases h
        exact .yes (isYes_iff.mp ‹_›)
      · split at h
        · cases h
          exact .no (isNo_iff.mp ‹_›)
        · split at h
          · rename_i m read
            cases h
            obtain ⟨numeral, fits⟩ := Decimal.natural?_iff.mp read
            exact .text numeral fits
          · cases h
  · intro h
    cases h with
    | int fits =>
      rw [toWord, if_pos ⟨Int.natCast_nonneg n, Int.ofNat_lt.mpr fits⟩]
      rfl
    | float h => exact congrArg Except.ok (Double.toWord_eq_iff.mpr h)
    | true | false => rfl
    | yes h => exact if_pos (isYes_iff.mpr h)
    | no h =>
      have word := isNo_iff.mpr h
      simp [toWord, isYes_of_isNo word, word]
    | @text s _ numeral fits =>
      have read : Decimal.natural? Limit.bits64 s = some n :=
        Decimal.natural?_iff.mpr ⟨numeral, fits⟩
      obtain ⟨noYes, noNo⟩ := word_of_natural? read
      simp [toWord, noYes, noNo, read]

theorem toPort_iff {v : Value} {n : UInt16} : v.toPort = .ok n ↔ v.AsNumber n.toNat := by
  rw [← toWord_iff, toPort]
  cases v.toWord with
  | error e => simp
  | ok m =>
    by_cases fits : m < Limit.bits16
    · simp only [if_pos fits, Except.ok.injEq]
      constructor
      · rintro rfl
        exact (UInt16.toNat_ofNat_of_lt' fits).symm
      · rintro rfl
        exact UInt16.ofNat_toNat
    · simp only [if_neg fits, reduceCtorEq, Except.ok.injEq, false_iff]
      rintro rfl
      exact fits n.toNat_lt

theorem AsNumber.lt {v : Value} {n : Nat} (h : v.AsNumber n) : n < 2 ^ 64 := by
  cases h with
  | int fits => exact fits
  | float h => exact h.lt
  | true | false | yes | no => decide
  | text _ fits => exact fits

theorem toSize_iff {v : Value} {n : UInt64} : v.toSize = .ok n ↔ v.AsNumber n.toNat := by
  rw [toSize, map_eq_ok]
  constructor
  · rintro ⟨m, hm, rfl⟩
    have number := toWord_iff.mp hm
    rwa [Nat.toUInt64_eq, UInt64.toNat_ofNat_of_lt' number.lt]
  · intro h
    exact ⟨n.toNat, toWord_iff.mpr h, UInt64.ofNat_toNat⟩

end Value

/-- A value as one that a leaf can have. -/
def Leaf.Reads : (l : Leaf) → Value → l.type → Prop
  | .host, v, s | .path, v, s | .level, v, s => v.AsText s
  | .port, v, n => v.AsNumber (UInt16.toNat n)
  | .maxPayloadBytes, v, n => v.AsNumber (UInt64.toNat n)
  | .flushOnInsert, v, b => v.AsBool b

theorem Leaf.convert_iff {l : Leaf} {v : Value} {x : l.type} : l.convert v = .ok x ↔ l.Reads v x :=
  match l with
  | .host | .path | .level => Value.toText_iff
  | .port => Value.toPort_iff
  | .maxPayloadBytes => Value.toSize_iff
  | .flushOnInsert => Value.toBool_iff

end Config

end TopicQueue

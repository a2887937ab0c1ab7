import Mathlib.Data.List.Basic
import TopicQueue.Decimal.Digits

namespace TopicQueue.Decimal

theorem isNumeral_iff {ds : List Char} :
    isNumeral ds = true ↔ ds ≠ [] ∧ ∀ c ∈ ds, c.isDigit = true := by
  cases ds <;> simp [isNumeral]

theorem toList_toString (n : Nat) : (toString n).toList = Nat.toDigits 10 n := by
  rw [Nat.toString_eq_repr, Nat.toList_repr]

theorem isNumeral_toDigits (n : Nat) : isNumeral (Nat.toDigits 10 n) = true :=
  isNumeral_iff.mpr ⟨Nat.toDigits_ne_nil,
    fun _ hc => Nat.isDigit_of_mem_toDigits (by decide) (by decide) hc⟩

/-- Nothing but a lone zero starts with a zero. -/
def Proper (ds : List Char) : Prop := ds = ['0'] ∨ ds.head? ≠ some '0'

instance (ds : List Char) : Decidable (Proper ds) := inferInstanceAs (Decidable (_ ∨ _))

theorem digitChar_ne_zero : ∀ d < 10, 0 < d → Nat.digitChar d ≠ '0' := by decide

theorem head_toDigits_ne_zero {n : Nat} (hn : 0 < n) : (Nat.toDigits 10 n).head? ≠ some '0' := by
  induction n using Nat.strongRecOn with
  | ind n ih =>
    by_cases h : n < 10
    · simpa [Nat.toDigits_of_lt_base h] using digitChar_ne_zero n h hn
    · have split : Nat.toDigits 10 n = Nat.toDigits 10 (n / 10) ++ Nat.toDigits 10 (n % 10) := by
        rw [Nat.toDigits_append_toDigits (by decide) (by omega) (by omega), Nat.div_add_mod]
      rw [split, List.head?_append_of_ne_nil _ Nat.toDigits_ne_nil]
      exact ih (n / 10) (by omega) (by omega)

theorem proper_toDigits (n : Nat) : Proper (Nat.toDigits 10 n) := by
  by_cases h : 0 < n
  · exact .inr (head_toDigits_ne_zero h)
  · obtain rfl : n = 0 := by omega
    exact .inl rfl

theorem digit_lt {c : Char} (h : c.isDigit = true) : c.toNat - 48 < 10 := by
  have high := (Char.isDigit_iff_toNat.mp h).2
  have : '9'.toNat = 57 := rfl
  omega

theorem toDigits_digit {c : Char} (h : c.isDigit = true) :
    Nat.toDigits 10 (c.toNat - 48) = [c] := by
  have low := (Char.isDigit_iff_toNat.mp h).1
  have : '0'.toNat = 48 := rfl
  have chars : ∀ d < 10, Nat.digitChar d = Char.ofNat (48 + d) := by decide
  rw [Nat.toDigits_of_lt_base (digit_lt h), chars _ (digit_lt h),
    show 48 + (c.toNat - 48) = c.toNat by omega, Char.ofNat_toNat]

/-- Digits behind a number that is not zero stand behind its own digits. -/
theorem toDigits_foldl {n : Nat} {ds : List Char} (hn : 0 < n) (hd : ∀ c ∈ ds, c.isDigit = true) :
    Nat.toDigits 10 n ++ ds =
      Nat.toDigits 10 (ds.foldl (fun n d => n * 10 + (d.toNat - 48)) n) := by
  induction ds generalizing n with
  | nil => simp
  | cons c ds ih =>
    obtain ⟨hc, hd⟩ := List.forall_mem_cons.mp hd
    have small := digit_lt hc
    have pushed : Nat.toDigits 10 n ++ [c] = Nat.toDigits 10 (n * 10 + (c.toNat - 48)) := by
      rw [← toDigits_digit hc, Nat.toDigits_append_toDigits (by decide) hn small, Nat.mul_comm]
    rw [List.foldl_cons, ← ih (by omega) hd, ← pushed, List.append_assoc]
    rfl

/-- A proper numeral is the text of its number. -/
theorem toDigits_natural {ds : List Char} (numeral : isNumeral ds = true) (proper : Proper ds) :
    Nat.toDigits 10 (natural ds) = ds := by
  obtain ⟨nonempty, digits⟩ := isNumeral_iff.mp numeral
  rcases proper with rfl | head
  · rfl
  · cases ds with
    | nil => exact absurd rfl nonempty
    | cons c ds =>
      obtain ⟨hc, hd⟩ := List.forall_mem_cons.mp digits
      have positive : 0 < c.toNat - 48 := by
        have low := (Char.isDigit_iff_toNat.mp hc).1
        have zero : c.toNat ≠ 48 := fun h => head (by
          rw [List.head?_cons, ← Char.ofNat_toNat c, h])
        have : '0'.toNat = 48 := rfl
        omega
      rw [natural, List.foldl_cons, Nat.zero_mul, Nat.zero_add, ← toDigits_foldl positive hd,
        toDigits_digit hc]
      rfl

/-- What a numeral with a sign or without one writes. -/
inductive Whole : List Char → Int → Prop
  | bare {ds : List Char} : isNumeral ds = true → Whole ds (natural ds)
  | plus {ds : List Char} : isNumeral ds = true → Whole ('+' :: ds) (natural ds)
  | minus {ds : List Char} : isNumeral ds = true → Whole ('-' :: ds) (-(natural ds : Int))

theorem sign_digit {c : Char} (digit : c.isDigit = true) (cs : List Char) :
    sign (c :: cs) = (false, c :: cs) := by
  unfold sign
  split
  · exact absurd digit (by rename_i he; cases he; decide)
  · exact absurd digit (by rename_i he; cases he; decide)
  · rfl

theorem not_sign {ds : List Char} (h : isNumeral ds = true) : sign ds = (false, ds) := by
  cases ds with
  | nil => rfl
  | cons c ds => exact sign_digit ((isNumeral_iff.mp h).2 c List.mem_cons_self) ds

theorem whole_iff {cs : List Char} {i : Int} :
    Whole cs i ↔ isNumeral (sign cs).2 = true ∧
      i = if (sign cs).1 then -(natural (sign cs).2 : Int) else natural (sign cs).2 := by
  constructor
  · intro h
    cases h with
    | bare numeral => simp [not_sign numeral, numeral]
    | plus numeral => exact ⟨numeral, rfl⟩
    | minus numeral => exact ⟨numeral, rfl⟩
  · rintro ⟨numeral, rfl⟩
    unfold sign at numeral ⊢
    split at numeral
    · exact .minus numeral
    · exact .plus numeral
    · exact .bare numeral

theorem Whole.unique {cs : List Char} {i j : Int} (hi : Whole cs i) (hj : Whole cs j) : i = j :=
  (whole_iff.mp hi).2.trans (whole_iff.mp hj).2.symm

/-- A whole number of 64 bits is read as such. -/
theorem signedWord?_iff {s : String} {i : Int} :
    signedWord? s = some i ↔
      Whole s.toList i ∧ -(Limit.bits63 : Int) ≤ i ∧ i < (Limit.bits63 : Int) := by
  rw [whole_iff]
  unfold signedWord?
  obtain ⟨negative, ds⟩ := sign s.toList
  have : 0 < Limit.bits63 := by decide
  simp only []
  cases isNumeral ds with
  | false => simp
  | true =>
    simp only [Bool.not_true, Bool.false_eq_true, if_false, true_and]
    cases negative with
    | true =>
      simp only [if_true]
      split
      · simp only [Option.some.injEq]
        omega
      · simp only [reduceCtorEq, false_iff]
        omega
    | false =>
      simp only [Bool.false_eq_true, if_false]
      split
      · simp only [Option.some.injEq]
        omega
      · simp only [reduceCtorEq, false_iff]
        omega

theorem natural_toDigits (n : Nat) : natural (Nat.toDigits 10 n) = n := by
  have read := Nat.ofDigitChars_toDigits (b := 10) (n := n) (by decide) (by decide)
  have zero : '0'.toNat = 48 := rfl
  rw [Nat.ofDigitChars] at read
  simpa only [natural, Nat.mul_comm, zero] using read

theorem natural_zeros (zeros : Nat) (ds : List Char) :
    natural (List.replicate zeros '0' ++ ds) = natural ds := by
  induction zeros with
  | zero => rfl
  | succ zeros ih => exact ih

/-- Digits are those of a number, with zeros in front or without. -/
theorem digits_iff {ds : List Char} {n : Nat} : isNumeral ds = true ∧ natural ds = n ↔
    ∃ zeros, ds = List.replicate zeros '0' ++ Nat.toDigits 10 n := by
  constructor
  · rintro ⟨numeral, rfl⟩
    induction ds with
    | nil => cases numeral
    | cons c ds ih =>
      by_cases hc : c = '0'
      · subst hc
        cases ds with
        | nil => exact ⟨0, rfl⟩
        | cons d ds =>
          obtain ⟨-, digits⟩ := isNumeral_iff.mp numeral
          have shorter : isNumeral (d :: ds) = true := isNumeral_iff.mpr
            ⟨List.cons_ne_nil d ds, fun c hc => digits c (List.mem_cons_of_mem _ hc)⟩
          obtain ⟨zeros, same⟩ := ih shorter
          exact ⟨zeros + 1, congrArg (List.cons '0') same⟩
      · refine ⟨0, (toDigits_natural numeral (.inr ?_)).symm⟩
        simpa using hc
  · rintro ⟨zeros, rfl⟩
    refine ⟨isNumeral_iff.mpr ⟨?_, ?_⟩, by rw [natural_zeros, natural_toDigits]⟩
    · simp [Nat.toDigits_ne_nil]
    · simp only [List.mem_append]
      rintro c (hc | hc)
      · rw [List.eq_of_mem_replicate hc]
        decide
      · exact (isNumeral_iff.mp (isNumeral_toDigits n)).2 c hc

/-- A numeral of a natural number: its digits, with zeros or a plus sign in front of them. -/
inductive Numeral (n : Nat) : String → Prop
  | bare (zeros : Nat) : Numeral n (String.ofList (List.replicate zeros '0') ++ toString n)
  | plus (zeros : Nat) : Numeral n ("+" ++ String.ofList (List.replicate zeros '0') ++ toString n)

theorem Numeral.chars {n : Nat} {s : String} : Numeral n s ↔
    ∃ zeros, s.toList = List.replicate zeros '0' ++ Nat.toDigits 10 n ∨
      s.toList = '+' :: (List.replicate zeros '0' ++ Nat.toDigits 10 n) := by
  constructor
  · intro h
    cases h with
    | bare zeros => exact ⟨zeros, .inl (by simp)⟩
    | plus zeros => exact ⟨zeros, .inr (by simp)⟩
  · rintro ⟨zeros, h | h⟩
    · have same : s = String.ofList (List.replicate zeros '0') ++ toString n := by
        rw [← String.toList_inj, h]
        simp
      exact same ▸ .bare zeros
    · have same : s = "+" ++ String.ofList (List.replicate zeros '0') ++ toString n := by
        rw [← String.toList_inj, h]
        simp
      exact same ▸ .plus zeros

theorem natural?_iff {limit n : Nat} {s : String} :
    natural? limit s = some n ↔ Numeral n s ∧ n < limit := by
  have read : ∀ ds,
      (if isNumeral ds && natural ds < limit then some (natural ds) else none) = some n ↔
      (∃ zeros, ds = List.replicate zeros '0' ++ Nat.toDigits 10 n) ∧ n < limit := by
    intro ds
    rw [← digits_iff]
    constructor
    · intro h
      split at h
      · rename_i fits
        obtain ⟨numeral, below⟩ := Bool.and_eq_true_iff.mp fits
        cases h
        exact ⟨⟨numeral, rfl⟩, of_decide_eq_true below⟩
      · cases h
    · rintro ⟨⟨numeral, rfl⟩, below⟩
      simp [numeral, below]
  rw [Numeral.chars]
  unfold natural?
  split
  · rename_i ds plus
    rw [read, plus]
    refine and_congr_left fun _ => exists_congr fun zeros => ?_
    have noDigit : '+' :: ds ≠ List.replicate zeros '0' ++ Nat.toDigits 10 n := fun h => by
      have numeral := (digits_iff.mpr ⟨zeros, rfl⟩ : isNumeral _ = true ∧ natural _ = n).1
      rw [← h] at numeral
      exact absurd ((isNumeral_iff.mp numeral).2 '+' List.mem_cons_self) (by decide)
    simp [noDigit]
  · rename_i bare
    rw [read]
    refine and_congr_left fun _ => exists_congr fun zeros => ?_
    rw [or_iff_left (bare _)]

/-- A text that is the one its number is written with. -/
def Canonical (cs : List Char) : Prop :=
  (isNumeral cs = true ∧ Proper cs) ∨
    ∃ ds, cs = '-' :: ds ∧ isNumeral ds = true ∧ ds.head? ≠ some '0'

theorem toList_toString_negative {n : Nat} (hn : 0 < n) :
    (toString (-(n : Int))).toList = '-' :: Nat.toDigits 10 n := by
  obtain ⟨m, rfl⟩ : ∃ m, n = m + 1 := ⟨n - 1, by omega⟩
  have written : toString (-((m + 1 : Nat) : Int)) = "-" ++ (m + 1).repr := rfl
  rw [written, String.toList_append, Nat.toList_repr]
  rfl

theorem toList_toString_int (n : Nat) : (toString (n : Int)).toList = Nat.toDigits 10 n :=
  toList_toString n

/-- A whole number is written as the text it was read from if that was canonical. -/
theorem Whole.toString_eq_iff {s : String} {i : Int} (h : Whole s.toList i) :
    toString i = s ↔ Canonical s.toList := by
  constructor
  · intro same
    rw [← same]
    by_cases negative : i < 0
    · obtain ⟨n, rfl, hn⟩ : ∃ n : Nat, i = -(n : Int) ∧ 0 < n := ⟨i.natAbs, by omega, by omega⟩
      rw [toList_toString_negative hn]
      exact .inr ⟨_, rfl, isNumeral_toDigits n, head_toDigits_ne_zero hn⟩
    · obtain ⟨n, rfl⟩ := Int.eq_ofNat_of_zero_le (Int.not_lt.mp negative)
      rw [toList_toString_int]
      exact .inl ⟨isNumeral_toDigits n, proper_toDigits n⟩
  · rintro (⟨numeral, proper⟩ | ⟨ds, minus, numeral, head⟩)
    · obtain rfl := h.unique (.bare numeral)
      rw [← String.toList_inj, toList_toString_int, toDigits_natural numeral proper]
    · rw [minus] at h
      obtain rfl := h.unique (.minus numeral)
      have digits := toDigits_natural numeral (.inr head)
      have positive : 0 < natural ds := by
        refine Nat.pos_of_ne_zero fun zero => head ?_
        rw [zero] at digits
        rw [← digits]
        rfl
      rw [← String.toList_inj, toList_toString_negative positive, digits, minus]

end TopicQueue.Decimal

import Mathlib.Algebra.Order.Field.Power
import Mathlib.Tactic.Linarith
import Mathlib.Tactic.Positivity
import Mathlib.Tactic.FieldSimp
import Mathlib.Data.Rat.Cast.Order
import TopicQueue.Decimal.Shortest

namespace TopicQueue.Double

@[simp]
theorem twoTo_eq (n : Nat) : twoTo n = 2 ^ n := rfl

theorem ratio_pos (m : Nat) (e : Int) : 0 < (ratio m e).2 := by
  unfold ratio
  split
  · exact Nat.two_pow_pos _
  · exact Nat.one_pos

/-- The quotient is the number that mantissa and exponent stand for. -/
theorem ratio_value (m : Nat) (e : Int) :
    ((ratio m e).1 : ℚ) / (ratio m e).2 = m * 2 ^ e := by
  unfold ratio
  split
  · rename_i negative
    obtain ⟨n, rfl⟩ : ∃ n : Nat, e = -(n : Int) := ⟨e.natAbs, by omega⟩
    simp [zpow_neg, div_eq_mul_inv]
  · rename_i positive
    obtain ⟨n, rfl⟩ := Int.eq_ofNat_of_zero_le (Int.not_lt.mp positive)
    simp

/-- The whole number nearest to a magnitude; a half goes up. -/
theorem nearestAway_eq_iff {m n : Nat} {e : Int} :
    nearestAway m e = n ↔ (n : ℚ) ≤ m * 2 ^ e + 1 / 2 ∧ (m : ℚ) * 2 ^ e + 1 / 2 < n + 1 := by
  have hb := ratio_pos m e
  rw [← ratio_value, nearestAway]
  generalize ratio m e = r at *
  obtain ⟨a, b⟩ := r
  dsimp only at hb ⊢
  have pos : (0 : ℚ) < b := by exact_mod_cast hb
  have half : (a : ℚ) / b + 1 / 2 = (2 * a + b : ℕ) / (2 * b : ℕ) := by
    push_cast
    field_simp
  have pos' : (0 : ℚ) < (2 * b : ℕ) := by exact_mod_cast Nat.mul_pos two_pos hb
  rw [half, le_div_iff₀ pos', div_lt_iff₀ pos', Nat.div_eq_iff (by omega)]
  norm_cast
  rw [Nat.add_mul, Nat.one_mul]
  omega

/-- A double as a whole number of 64 bits: the nearest one, a half going away from zero, as far as
there is one. -/
inductive Rounds : Double → Nat → Prop
  | nan : Rounds .nan 0
  | lowest : Rounds (.infinite true) 0
  | highest : Rounds (.infinite false) (2 ^ 64 - 1)
  | negative (m : Nat) (e : Int) : Rounds (.finite true m e) 0
  | nearest {m n : Nat} {e : Int} (low : (n : ℚ) ≤ m * 2 ^ e + 1 / 2)
      (high : (m : ℚ) * 2 ^ e + 1 / 2 < n + 1) (fits : n < 2 ^ 64) : Rounds (.finite false m e) n
  | beyond {m : Nat} {e : Int} (high : (2 : ℚ) ^ 64 ≤ m * 2 ^ e + 1 / 2) :
      Rounds (.finite false m e) (2 ^ 64 - 1)

theorem Rounds.lt {d : Double} {n : Nat} (h : d.Rounds n) : n < 2 ^ 64 := by
  cases h with
  | nearest _ _ fits => exact fits
  | nan | lowest | highest | negative | beyond => decide

theorem toWord_eq_iff {d : Double} {n : Nat} : d.toWord = n ↔ d.Rounds n := by
  have limit : Limit.bits64 = 2 ^ 64 := rfl
  constructor
  · rintro rfl
    match d with
    | .nan => exact .nan
    | .infinite true => exact .lowest
    | .infinite false => exact .highest
    | .finite true m e => exact .negative m e
    | .finite false m e =>
      obtain ⟨low, high⟩ := (nearestAway_eq_iff (m := m) (e := e)).mp rfl
      change Rounds _ (min (nearestAway m e) (Limit.bits64 - 1))
      rw [limit]
      by_cases fits : nearestAway m e < 2 ^ 64
      · rw [Nat.min_eq_left (Nat.le_sub_one_of_lt fits)]
        exact .nearest low high fits
      · have atLeast : 2 ^ 64 ≤ nearestAway m e := Nat.not_lt.mp fits
        rw [Nat.min_eq_right (Nat.le_trans (Nat.sub_le _ _) atLeast)]
        exact .beyond (le_trans (by exact_mod_cast atLeast) low)
  · intro h
    cases h with
    | nan | lowest | highest | negative => rfl
    | nearest low high fits =>
      rw [toWord, nearestAway_eq_iff.mpr ⟨low, high⟩, limit]
      exact Nat.min_eq_left (Nat.le_sub_one_of_lt fits)
    | @beyond m e high =>
      obtain ⟨-, below⟩ := (nearestAway_eq_iff (m := m) (e := e)).mp rfl
      have atLeast : 2 ^ 64 < nearestAway m e + 1 := by exact_mod_cast lt_of_le_of_lt high below
      exact Nat.min_eq_right (Nat.le_trans (Nat.sub_le _ _) (Nat.le_of_lt_succ atLeast))

end TopicQueue.Double

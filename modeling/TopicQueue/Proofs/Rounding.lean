import Mathlib.Tactic.Ring
import TopicQueue.Proofs.Doubles

namespace TopicQueue.Double

/-- Finite numbers have a mantissa of 53 bits, or the least exponent. -/
inductive Canonical : Double → Prop
  | nan : Canonical .nan
  | infinite (negative : Bool) : Canonical (.infinite negative)
  | finite (negative : Bool) {m : Nat} {e : Int} (small : m < 2 ^ 53) (low : -1074 ≤ e)
      (high : e ≤ 971) (full : 2 ^ 52 ≤ m ∨ e = -1074) : Canonical (.finite negative m e)

/-- A number between those that are halfway to the next finite ones. The even one of two has what
is halfway. -/
def Covers (m : Nat) (e : Int) (x : ℚ) : Prop :=
  let h := neighbourhood m e
  if m % 2 = 0 then h.low * 2 ^ (e - 2) ≤ x ∧ x ≤ h.high * 2 ^ (e - 2)
  else h.low * 2 ^ (e - 2) < x ∧ x < h.high * 2 ^ (e - 2)

theorem scale_value (num : Nat) {den : Nat} (hd : 0 < den) (e : Int) :
    0 < (scale num den e).2 ∧
      ((scale num den e).1 : ℚ) / (scale num den e).2 = num / den / 2 ^ e := by
  have pos : (0 : ℚ) < den := by exact_mod_cast hd
  unfold scale
  split
  · obtain ⟨n, rfl⟩ : ∃ n : Nat, e = -(n : Int) := ⟨e.natAbs, by omega⟩
    refine ⟨hd, ?_⟩
    simp only [twoTo_eq, Int.natAbs_neg, Int.natAbs_natCast, zpow_neg, zpow_natCast]
    push_cast
    field_simp
  · obtain ⟨n, rfl⟩ := Int.eq_ofNat_of_zero_le (Int.not_lt.mp ‹_›)
    refine ⟨Nat.mul_pos hd (Nat.two_pow_pos _), ?_⟩
    simp only [twoTo_eq, Int.natAbs_natCast, zpow_natCast]
    push_cast
    field_simp

theorem log2_bounds {n : Nat} (hn : 0 < n) :
    (2 : ℚ) ^ (n.log2 : Int) ≤ n ∧ (n : ℚ) < 2 ^ ((n.log2 : Int) + 1) := by
  constructor
  · rw [zpow_natCast]
    exact_mod_cast Nat.log2_self_le hn.ne'
  · rw [← Nat.cast_succ, zpow_natCast]
    exact_mod_cast Nat.lt_log2_self

/-- A quotient of numbers that are known up to a factor of two. -/
theorem quotient_bounds {num den : Nat} (hn : 0 < num) (hd : 0 < den) :
    (2 : ℚ) ^ ((num.log2 : Int) - den.log2 - 1) < num / den ∧
      (num : ℚ) / den < 2 ^ ((num.log2 : Int) - den.log2 + 1) := by
  obtain ⟨n1, n2⟩ := log2_bounds hn
  obtain ⟨d1, d2⟩ := log2_bounds hd
  have pos : (0 : ℚ) < den := by exact_mod_cast hd
  have two : (2 : ℚ) ≠ 0 := two_ne_zero
  constructor
  · rw [lt_div_iff₀ pos]
    calc (2 : ℚ) ^ ((num.log2 : Int) - den.log2 - 1) * den
        < 2 ^ ((num.log2 : Int) - den.log2 - 1) * 2 ^ ((den.log2 : Int) + 1) := by gcongr
      _ = 2 ^ (num.log2 : Int) := by rw [← zpow_add₀ two]; congr 1; ring
      _ ≤ num := n1
  · rw [div_lt_iff₀ pos]
    calc (num : ℚ) < 2 ^ ((num.log2 : Int) + 1) := n2
      _ = 2 ^ ((num.log2 : Int) - den.log2 + 1) * 2 ^ (den.log2 : Int) := by
        rw [← zpow_add₀ two]; congr 1; ring
      _ ≤ 2 ^ ((num.log2 : Int) - den.log2 + 1) * den := by gcongr

theorem div_lt_twoTo {n d k : Nat} (hd : 0 < d) : n / d < twoTo k ↔ (n : ℚ) / d < 2 ^ k := by
  have pos : (0 : ℚ) < d := by exact_mod_cast hd
  rw [twoTo_eq, Nat.div_lt_iff_lt_mul hd, div_lt_iff₀ pos]
  exact_mod_cast Iff.rfl

theorem two_zpow_add (k : Nat) (e : Int) : (2 : ℚ) ^ k * 2 ^ e = 2 ^ (k + e) := by
  rw [zpow_add₀ two_ne_zero, zpow_natCast]

/-- The exponent leaves 53 bits before the point, or it is the least one. -/
theorem exponentFor_spec {num den : Nat} (hn : 0 < num) (hd : 0 < den) :
    -1074 ≤ exponentFor num den ∧ (num : ℚ) / den < 2 ^ 53 * 2 ^ exponentFor num den ∧
      (exponentFor num den = -1074 ∨ (2 : ℚ) ^ 52 * 2 ^ exponentFor num den ≤ num / den) := by
  obtain ⟨low, high⟩ := quotient_bounds hn hd
  generalize hx : (num : ℚ) / den = x at low high
  -- before the least exponent is looked at
  obtain ⟨e, he, below, above⟩ : ∃ e, exponentFor num den = max e (-1074) ∧ x < 2 ^ 53 * 2 ^ e ∧
      (2 : ℚ) ^ 52 * 2 ^ e ≤ x := by
    obtain ⟨e, hedef⟩ : ∃ e : Int, e = num.log2 - den.log2 - 53 := ⟨_, rfl⟩
    obtain ⟨hd', value⟩ := scale_value num hd e
    have pos : (0 : ℚ) < 2 ^ e := by positivity
    by_cases fits : (scale num den e).1 / (scale num den e).2 < twoTo 53
    · refine ⟨e, by simp only [exponentFor, ← hedef, if_pos fits], ?_, ?_⟩
      · rwa [div_lt_twoTo hd', value, hx, div_lt_iff₀ pos] at fits
      · have same : ((52 : Nat) : Int) + e = num.log2 - den.log2 - 1 := by omega
        rw [two_zpow_add, same]
        exact low.le
    · refine ⟨e + 1, by simp only [exponentFor, ← hedef, if_neg fits], ?_, ?_⟩
      · have same : ((53 : Nat) : Int) + (e + 1) = num.log2 - den.log2 + 1 := by omega
        rw [two_zpow_add, same]
        exact high
      · rw [div_lt_twoTo hd', value, hx, div_lt_iff₀ pos, not_lt, two_zpow_add] at fits
        have same : ((52 : Nat) : Int) + (e + 1) = ((53 : Nat) : Int) + e := by omega
        rwa [two_zpow_add, same]
  rw [he]
  refine ⟨le_max_right _ _, lt_of_lt_of_le below ?_, ?_⟩
  · gcongr
    · norm_num
    · exact le_max_left _ _
  · rcases le_total e (-1074) with least | more
    · exact .inl (max_eq_right least)
    · right
      rwa [max_eq_left more]

theorem nearestEven_cases (num den : Nat) :
    (nearestEven num den = num / den ∧
      (2 * (num % den) < den ∨ 2 * (num % den) = den ∧ num / den % 2 = 0)) ∨
    (nearestEven num den = num / den + 1 ∧
      (den < 2 * (num % den) ∨ 2 * (num % den) = den ∧ (num / den + 1) % 2 = 0)) := by
  unfold nearestEven
  dsimp only
  split
  · exact .inl ⟨rfl, .inl ‹_›⟩
  · split
    · exact .inr ⟨rfl, .inl ‹_›⟩
    · split
      · exact .inl ⟨rfl, .inr ⟨by omega, ‹_›⟩⟩
      · exact .inr ⟨rfl, .inr ⟨by omega, by omega⟩⟩

theorem nearestEven_bounds (num den : Nat) :
    num / den ≤ nearestEven num den ∧ nearestEven num den ≤ num / den + 1 := by
  rcases nearestEven_cases num den with ⟨h, -⟩ | ⟨h, -⟩ <;> rw [h] <;> omega

/-- The nearest integer is the only one that is at most a half away, of two the even one. -/
theorem nearestEven_eq {num den q : Nat} (hd : 0 < den) (low : (q : ℚ) - 1 / 2 ≤ num / den)
    (high : (num : ℚ) / den ≤ q + 1 / 2)
    (tie : q % 2 = 0 ∨ (q : ℚ) - 1 / 2 < num / den ∧ (num : ℚ) / den < q + 1 / 2) :
    nearestEven num den = q := by
  have pos : (0 : ℚ) < den := by exact_mod_cast hd
  have split := Nat.div_add_mod num den
  have small := Nat.mod_lt num hd
  rw [le_div_iff₀ pos] at low
  rw [div_le_iff₀ pos] at high
  rw [lt_div_iff₀ pos, div_lt_iff₀ pos] at tie
  have low' : 2 * (q * den) ≤ 2 * num + den := by
    have : (2 * (q * den) : ℚ) ≤ 2 * num + den := by linarith
    exact_mod_cast this
  have high' : 2 * num ≤ 2 * (q * den) + den := by
    have : (2 * num : ℚ) ≤ 2 * (q * den) + den := by linarith
    exact_mod_cast this
  have tie' : q % 2 = 0 ∨ 2 * (q * den) < 2 * num + den ∧ 2 * num < 2 * (q * den) + den := by
    refine tie.imp_right fun ⟨l, h⟩ => ⟨?_, ?_⟩
    · have : (2 * (q * den) : ℚ) < 2 * num + den := by linarith
      exact_mod_cast this
    · have : (2 * num : ℚ) < 2 * (q * den) + den := by linarith
      exact_mod_cast this
  have near : q = num / den ∨ q = num / den + 1 := by
    have upper : q * den < (num / den + 2) * den := by
      rw [Nat.add_mul, Nat.mul_comm (num / den)]
      omega
    have lower : num / den * den < (q + 1) * den := by
      rw [Nat.add_mul, Nat.mul_comm (num / den)]
      omega
    have := Nat.lt_of_mul_lt_mul_right upper
    have := Nat.lt_of_mul_lt_mul_right lower
    omega
  rcases near with rfl | rfl
  · rw [Nat.mul_comm (num / den)] at low' high' tie'
    rcases nearestEven_cases num den with ⟨h, -⟩ | ⟨-, h⟩
    · exact h
    · omega
  · rw [Nat.add_mul, Nat.mul_comm (num / den)] at low' high' tie'
    rcases nearestEven_cases num den with ⟨-, h⟩ | ⟨h, -⟩
    · omega
    · exact h

section Covers

variable {m : Nat} {e : Int} {x : ℚ}

theorem quarter_zpow (e : Int) : (2 : ℚ) ^ (e - 2) = 2 ^ e / 4 := by
  rw [zpow_sub₀ two_ne_zero]
  norm_num

theorem neighbourhood_low (hm : 0 < m) : 4 * (m : ℚ) - 2 ≤ (neighbourhood m e).low := by
  have least : 4 * m ≤ (neighbourhood m e).low + 2 := by
    simp only [neighbourhood]
    split <;> omega
  have : (4 * m : ℚ) ≤ (neighbourhood m e).low + 2 := by exact_mod_cast least
  linarith

theorem neighbourhood_high : ((neighbourhood m e).high : ℚ) = 4 * m + 2 := by
  simp [neighbourhood]

/-- What is covered is a half away at most, and less than that from an odd number. -/
theorem Covers.halves (h : Covers m e x) (hm : 0 < m) :
    ((m : ℚ) - 1 / 2 ≤ x / 2 ^ e ∧ x / 2 ^ e ≤ m + 1 / 2) ∧
      (m % 2 = 0 ∨ (m : ℚ) - 1 / 2 < x / 2 ^ e ∧ x / 2 ^ e < m + 1 / 2) := by
  have pos : (0 : ℚ) < 2 ^ e := by positivity
  have low := mul_le_mul_of_nonneg_right (neighbourhood_low (e := e) hm) pos.le
  simp only [Covers, quarter_zpow, neighbourhood_high] at h
  rw [le_div_iff₀ pos, div_le_iff₀ pos, lt_div_iff₀ pos, div_lt_iff₀ pos]
  split at h
  · exact ⟨⟨by linarith, by linarith⟩, .inl ‹_›⟩
  · exact ⟨⟨by linarith, by linarith⟩, .inr ⟨by linarith, by linarith⟩⟩

/-- Below a power of two it is a quarter. -/
theorem Covers.quarter (h : Covers (2 ^ 52) e x) (he : -1074 < e) :
    (2 : ℚ) ^ 52 - 1 / 4 ≤ x / 2 ^ e := by
  have pos : (0 : ℚ) < 2 ^ e := by positivity
  have low : ((neighbourhood (2 ^ 52) e).low : ℚ) = 4 * 2 ^ 52 - 1 := by
    simp only [neighbourhood, twoTo_eq, he, and_self, if_true]
    norm_num
  have even : (2 ^ 52 : Nat) % 2 = 0 := by decide
  simp only [Covers, if_pos even, quarter_zpow, low] at h
  rw [le_div_iff₀ pos]
  linarith

end Covers

theorem round_of {negative : Bool} {num den q : Nat} {e : Int} (hn : 0 < num)
    (he : exponentFor num den = e)
    (hq : nearestEven (scale num den e).1 (scale num den e).2 = q) :
    round negative num den =
      if q = 2 ^ 53 then
        if 971 < e + 1 then .infinite negative else .finite negative (2 ^ 52) (e + 1)
      else if 971 < e then .infinite negative else .finite negative q e := by
  have nonzero : num ≠ 0 := hn.ne'
  simp only [round, if_neg nonzero, he, hq, twoTo_eq]
  split <;> rfl

/-- The exponent that a quotient gets is that of the number that covers it, or the one below, just
under a power of two. -/
theorem exponentFor_cases {num den m : Nat} {e : Int} (hn : 0 < num) (hd : 0 < den) (hm : 0 < m)
    (small : m < 2 ^ 53) (least : -1074 ≤ e) (full : 2 ^ 52 ≤ m ∨ e = -1074)
    (covers : Covers m e (num / den)) :
    exponentFor num den = e ∨ exponentFor num den = e - 1 ∧ m = 2 ^ 52 ∧
      (2 : ℚ) ^ 52 - 1 / 4 ≤ num / den / 2 ^ e ∧ (num : ℚ) / den / 2 ^ e < 2 ^ 52 := by
  obtain ⟨⟨low, high⟩, -⟩ := covers.halves hm
  obtain ⟨least', below, above⟩ := exponentFor_spec hn hd
  generalize exponentFor num den = e' at *
  have pos : (0 : ℚ) < 2 ^ e := by positivity
  have small' : (m : ℚ) ≤ 2 ^ 53 - 1 := by
    rw [le_sub_iff_add_le]
    exact_mod_cast small
  generalize (num : ℚ) / den = x at *
  rcases lt_trichotomy e' e with less | same | more
  · right
    have power : x < 2 ^ 53 * 2 ^ (e - 1) := by
      refine lt_of_lt_of_le below ?_
      gcongr
      · norm_num
      · omega
    have under : x / 2 ^ e < 2 ^ 52 := by
      have same : ((53 : Nat) : Int) + (e - 1) = ((52 : Nat) : Int) + e := by omega
      rw [div_lt_iff₀ pos, two_zpow_add, ← same, ← two_zpow_add]
      exact power
    have whole : m = 2 ^ 52 := by
      have most : m < 2 ^ 52 + 1 := by
        have : (m : ℚ) < 2 ^ 52 + 1 := by linarith
        exact_mod_cast this
      omega
    subst whole
    have quarter := covers.quarter (by omega)
    refine ⟨?_, rfl, quarter, under⟩
    by_contra apart
    have tiny : x < 2 ^ 53 * 2 ^ (e - 2) := by
      refine lt_of_lt_of_le below ?_
      gcongr
      · norm_num
      · omega
    rw [quarter_zpow] at tiny
    have half : x / 2 ^ e < 2 ^ 51 := by
      rw [div_lt_iff₀ pos]
      linarith
    linarith
  · exact .inl same
  · have reached : (2 : ℚ) ^ 52 * 2 ^ (e + 1) ≤ x := by
      refine le_trans ?_ (above.resolve_left (by omega))
      gcongr
      · norm_num
      · omega
    have same : ((52 : Nat) : Int) + (e + 1) = ((53 : Nat) : Int) + e := by omega
    rw [two_zpow_add, same, ← two_zpow_add, ← le_div_iff₀ pos] at reached
    linarith

/-- A quotient that a number covers is rounded to it. -/
theorem round_eq (negative : Bool) {num den m : Nat} {e : Int} (hd : 0 < den) (hm : 0 < m)
    (canonical : Canonical (.finite negative m e)) (covers : Covers m e (num / den)) :
    round negative num den = .finite negative m e := by
  obtain ⟨⟨low, high⟩, tie⟩ := covers.halves hm
  have one : (1 : ℚ) ≤ m := by exact_mod_cast hm
  have hn : 0 < num := by
    refine Nat.pos_of_ne_zero fun zero => ?_
    subst zero
    rw [Nat.cast_zero, zero_div, zero_div] at low
    linarith
  cases canonical with
  | finite _ small least most full =>
    rcases exponentFor_cases hn hd hm small least full covers with he | ⟨he, rfl, quarter, under⟩
    · obtain ⟨hd', value⟩ := scale_value num hd e
      rw [← value] at low high tie
      rw [round_of hn he (nearestEven_eq hd' low high tie), if_neg small.ne, if_neg most.not_gt]
    · obtain ⟨hd', value⟩ := scale_value num hd (e - 1)
      have twice : (num : ℚ) / den / 2 ^ (e - 1) = 2 * (num / den / 2 ^ e) := by
        rw [zpow_sub_one₀ two_ne_zero]
        field_simp
      rw [twice] at value
      have nearest : nearestEven (scale num den (e - 1)).1 (scale num den (e - 1)).2 = 2 ^ 53 := by
        refine nearestEven_eq hd' ?_ ?_ (.inl (by decide)) <;> rw [value] <;> push_cast <;> linarith
      have back : e - 1 + 1 = e := by omega
      rw [round_of hn he nearest, if_pos rfl, back, if_neg most.not_gt]

/-- What is rounded is a number that some text can stand for. -/
theorem round_canonical (negative : Bool) {num den : Nat} (hd : 0 < den) :
    (round negative num den).Canonical := by
  rcases Nat.eq_zero_or_pos num with rfl | hn
  · exact .finite negative (by decide) (by decide) (by decide) (.inr rfl)
  obtain ⟨least, below, above⟩ := exponentFor_spec hn hd
  obtain ⟨e, he⟩ : ∃ e, exponentFor num den = e := ⟨_, rfl⟩
  obtain ⟨q, hq⟩ : ∃ q, nearestEven (scale num den e).1 (scale num den e).2 = q := ⟨_, rfl⟩
  obtain ⟨hd', value⟩ := scale_value num hd e
  obtain ⟨low, high⟩ := nearestEven_bounds (scale num den e).1 (scale num den e).2
  have pos : (0 : ℚ) < 2 ^ e := by positivity
  rw [he] at least below above
  have floor : (scale num den e).1 / (scale num den e).2 < 2 ^ 53 := by
    rwa [← twoTo_eq, div_lt_twoTo hd', value, div_lt_iff₀ pos]
  have full : 2 ^ 52 ≤ (scale num den e).1 / (scale num den e).2 ∨ e = -1074 := by
    refine above.symm.imp_left fun reached => ?_
    rwa [← Nat.not_lt, ← twoTo_eq, div_lt_twoTo hd', value, div_lt_iff₀ pos, not_lt]
  rw [hq] at low high
  rw [round_of hn he hq]
  split
  · split
    · exact .infinite negative
    · exact .finite negative (by decide) (by omega) (by omega) (.inl (Nat.le_refl _))
  · split
    · exact .infinite negative
    · exact .finite negative (by omega) least (by omega)
        (full.imp_left fun reached => Nat.le_trans reached low)

end TopicQueue.Double

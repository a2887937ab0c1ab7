import Mathlib.Data.Nat.Digits.Defs
import TopicQueue.Proofs.EnvironmentTexts
import TopicQueue.Proofs.Rounding

namespace TopicQueue.Double

theorem tenTo_value (k : Int) :
    0 < (tenTo k).1 ∧ 0 < (tenTo k).2 ∧ ((tenTo k).1 : ℚ) / (tenTo k).2 = 10 ^ k := by
  unfold tenTo
  split
  · obtain ⟨n, rfl⟩ : ∃ n : Nat, k = -(n : Int) := ⟨k.natAbs, by omega⟩
    refine ⟨Nat.one_pos, Nat.pow_pos (by decide), ?_⟩
    simp [zpow_neg]
  · obtain ⟨n, rfl⟩ := Int.eq_ofNat_of_zero_le (Int.not_lt.mp ‹_›)
    refine ⟨Nat.pow_pos (by decide), Nat.one_pos, ?_⟩
    simp

section Neighbourhood

variable {m : Nat} {e k : Int}

/-- A grid point holds just if it is covered. -/
theorem holds_iff (g : Nat) : (neighbourhood m e).holds (g * ((tenTo k).1 * (ratio 1 (e - 2)).2))
    ((ratio 1 (e - 2)).1 * (tenTo k).2) = true ↔ Covers m e (g * 10 ^ k) := by
  obtain ⟨-, hb, ten⟩ := tenTo_value k
  have hq := ratio_pos 1 (e - 2)
  have two := ratio_value 1 (e - 2)
  rw [Nat.cast_one, one_mul] at two
  simp only [Neighbourhood.holds, Covers, ← ten, ← two]
  generalize tenTo k = t at *
  generalize ratio 1 (e - 2) = r at *
  obtain ⟨a, b⟩ := t
  obtain ⟨p, q⟩ := r
  dsimp only at hb hq ⊢
  have hb' : (0 : ℚ) < b := by exact_mod_cast hb
  have hq' : (0 : ℚ) < q := by exact_mod_cast hq
  have le_iff : ∀ u v : Nat, (u : ℚ) * (p / q) ≤ v * (a / b) ↔ u * (p * b) ≤ v * (a * q) := by
    intro u v
    rw [mul_div_assoc', mul_div_assoc', div_le_div_iff₀ hq' hb', ← Nat.mul_assoc, ← Nat.mul_assoc]
    exact_mod_cast Iff.rfl
  have ge_iff : ∀ u v : Nat, (v : ℚ) * (a / b) ≤ u * (p / q) ↔ v * (a * q) ≤ u * (p * b) := by
    intro u v
    rw [mul_div_assoc', mul_div_assoc', div_le_div_iff₀ hb' hq', ← Nat.mul_assoc, ← Nat.mul_assoc]
    exact_mod_cast Iff.rfl
  have closed : (neighbourhood m e).closed = decide (m % 2 = 0) := rfl
  rw [closed]
  generalize (neighbourhood m e).low = low, (neighbourhood m e).high = high
  by_cases even : m % 2 = 0
  · simp only [even, decide_true, if_true, Bool.and_eq_true, decide_eq_true_eq, le_iff, ge_iff]
  · simp only [even, decide_false, Bool.false_eq_true, if_false, Bool.and_eq_true,
      decide_eq_true_eq, ← not_le, le_iff, ge_iff]

/-- How often the grid's step goes into a number. -/
def gridBelow (m : Nat) (e k : Int) : Nat :=
  4 * m * ((ratio 1 (e - 2)).1 * (tenTo k).2) / ((tenTo k).1 * (ratio 1 (e - 2)).2)

theorem gridBelow_spec (m : Nat) (e k : Int) : (gridBelow m e k : ℚ) * 10 ^ k ≤ m * 2 ^ e ∧
    (m : ℚ) * 2 ^ e < (gridBelow m e k + 1) * 10 ^ k := by
  obtain ⟨ha, hb, ten⟩ := tenTo_value k
  have hq := ratio_pos 1 (e - 2)
  have two := ratio_value 1 (e - 2)
  have value : (m : ℚ) * 2 ^ e = (4 * m : ℕ) * 2 ^ (e - 2) := by
    rw [quarter_zpow]
    push_cast
    ring
  rw [Nat.cast_one, one_mul] at two
  rw [value, ← ten, ← two, gridBelow]
  generalize 4 * m = n
  generalize tenTo k = t at *
  generalize ratio 1 (e - 2) = r at *
  obtain ⟨a, b⟩ := t
  obtain ⟨p, q⟩ := r
  dsimp only at ha hb hq ⊢
  have hb' : (0 : ℚ) < b := by exact_mod_cast hb
  have hq' : (0 : ℚ) < q := by exact_mod_cast hq
  have step : 0 < a * q := Nat.mul_pos ha hq
  rw [mul_div_assoc', mul_div_assoc', mul_div_assoc', div_le_div_iff₀ hb' hq',
    div_lt_div_iff₀ hq' hb']
  simp only [mul_assoc]
  have low := Nat.div_mul_le_self (n * (p * b)) (a * q)
  have high := Nat.lt_div_mul_add (a := n * (p * b)) step
  generalize n * (p * b) / (a * q) = below at *
  constructor
  · exact_mod_cast low
  · rw [← Nat.succ_mul] at high
    exact_mod_cast high

theorem gridPoint?_cases (m : Nat) (e k : Int) :
    (∀ g, gridPoint? (neighbourhood m e) e k = some g → 0 < g ∧ Covers m e (g * 10 ^ k)) ∧
    (∀ g : Nat, g = gridBelow m e k ∨ g = gridBelow m e k + 1 → 0 < g →
      Covers m e (g * 10 ^ k) → ∃ g, gridPoint? (neighbourhood m e) e k = some g) := by
  have value : (neighbourhood m e).value = 4 * m := rfl
  simp only [← holds_iff]
  unfold gridPoint? gridBelow
  dsimp only
  rw [value]
  generalize 4 * m * ((ratio 1 (e - 2)).1 * (tenTo k).2) /
    ((tenTo k).1 * (ratio 1 (e - 2)).2) = below
  obtain ⟨fits, hfits⟩ : ∃ fits : Nat → Bool, ∀ g, (neighbourhood m e).holds
      (g * ((tenTo k).1 * (ratio 1 (e - 2)).2)) ((ratio 1 (e - 2)).1 * (tenTo k).2) = fits g :=
    ⟨_, fun _ => rfl⟩
  simp only [hfits]
  -- which of the two is nearer does not matter here
  constructor
  · intro g h
    split at h
    · rename_i both
      simp only [Bool.and_eq_true, bne_iff_ne] at both
      split at h <;> cases h
      · exact ⟨Nat.pos_of_ne_zero both.1.2, both.1.1⟩
      · exact ⟨Nat.succ_pos _, both.2⟩
    · split at h
      · rename_i low
        simp only [Bool.and_eq_true, bne_iff_ne] at low
        cases h
        exact ⟨Nat.pos_of_ne_zero low.2, low.1⟩
      · split at h
        · cases h
          exact ⟨Nat.succ_pos _, ‹_›⟩
        · cases h
  · rintro g choice positive covered
    split
    · exact ⟨_, rfl⟩
    · split
      · exact ⟨_, rfl⟩
      · rename_i low
        rcases choice with rfl | rfl
        · exact absurd (by simp [covered, positive.ne']) low
        · rw [if_pos covered]
          exact ⟨_, rfl⟩

theorem covers_between {x : ℚ} (low : (neighbourhood m e).low * 2 ^ (e - 2) < x)
    (high : x < (neighbourhood m e).high * 2 ^ (e - 2)) : Covers m e x := by
  unfold Covers
  dsimp only
  split
  · exact ⟨low.le, high.le⟩
  · exact ⟨low, high⟩

/-- Half of a step that goes into a number so often is less than the way to where the number's
interval begins. -/
theorem neighbourhood_wide (hm : 0 < m) (small : m < 2 ^ 53) {s : ℚ}
    (fine : s * 10 ^ 16 ≤ m * 2 ^ e) :
    (neighbourhood m e).low * 2 ^ (e - 2) < (m : ℚ) * 2 ^ e - s / 2 := by
  have pos : (0 : ℚ) < 2 ^ e := by positivity
  rw [quarter_zpow]
  by_cases power : m = 2 ^ 52
  · have low : ((neighbourhood m e).low : ℚ) ≤ 4 * m - 1 := by
      have : (neighbourhood m e).low + 1 ≤ 4 * m := by
        simp only [neighbourhood]
        split <;> omega
      rw [le_sub_iff_add_le]
      exact_mod_cast this
    have value : (m : ℚ) = 2 ^ 52 := by exact_mod_cast power
    have := mul_le_mul_of_nonneg_right low pos.le
    rw [value] at this fine ⊢
    linarith
  · have low : ((neighbourhood m e).low : ℚ) = 4 * m - 2 := by
      have : (neighbourhood m e).low + 2 = 4 * m := by
        simp only [neighbourhood, twoTo_eq, power, false_and, if_false]
        omega
      rw [eq_sub_iff_add_eq]
      exact_mod_cast this
    have below : (m : ℚ) * 2 ^ e ≤ (2 ^ 53 - 1) * 2 ^ e := by
      gcongr
      rw [le_sub_iff_add_le]
      exact_mod_cast small
    rw [low]
    linarith

/-- A grid that is fine enough has a point that is covered next to a number. -/
theorem gridPoint?_some (hm : 0 < m) (small : m < 2 ^ 53)
    (fine : (10 : ℚ) ^ k * 10 ^ 16 ≤ m * 2 ^ e) :
    ∃ g, gridPoint? (neighbourhood m e) e k = some g := by
  obtain ⟨low, high⟩ := gridBelow_spec m e k
  obtain ⟨-, found⟩ := gridPoint?_cases m e k
  have wide := neighbourhood_wide hm small fine
  have pos : (0 : ℚ) < 2 ^ e := by positivity
  have step : (0 : ℚ) < 10 ^ k := by positivity
  have top : (m : ℚ) * 2 ^ e + (10 : ℚ) ^ k / 2 < (neighbourhood m e).high * 2 ^ (e - 2) := by
    have below : (m : ℚ) * 2 ^ e ≤ (2 ^ 53 - 1) * 2 ^ e := by
      gcongr
      rw [le_sub_iff_add_le]
      exact_mod_cast small
    rw [quarter_zpow, neighbourhood_high]
    linarith
  generalize gridBelow m e k = g at *
  rcases le_total ((m : ℚ) * 2 ^ e - g * 10 ^ k) (10 ^ k / 2) with near | far
  · refine found g (.inl rfl) ?_ (covers_between (by linarith) (by linarith))
    refine Nat.pos_of_ne_zero fun zero => ?_
    rw [zero, Nat.cast_zero, zero_add, one_mul] at high
    linarith
  · refine found (g + 1) (.inr rfl) (Nat.succ_pos g) ?_
    push_cast
    exact covers_between (by linarith) (by linarith)

end Neighbourhood

/-- A power of ten that a power of two reaches, by the logarithm that is guessed with. -/
theorem guess_low : ∀ n < 2200, (tenTo (((n : Nat) - 1100 : Int) * 30103 / 100000 - 2)).1 *
    (ratio 1 ((n : Int) - 1100 - 1)).2 ≤ (ratio 1 ((n : Int) - 1100 - 1)).1 *
      (tenTo (((n : Nat) - 1100 : Int) * 30103 / 100000 - 2)).2 := by
  decide +kernel

theorem ten_le_two {l : Int} (low : -1100 ≤ l) (high : l < 1100) :
    (10 : ℚ) ^ (l * 30103 / 100000 - 2) ≤ 2 ^ (l - 1) := by
  obtain ⟨n, hn⟩ := Int.eq_ofNat_of_zero_le (show 0 ≤ l + 1100 by omega)
  have same : l = n - 1100 := by omega
  have checked := guess_low n (by omega)
  rw [← same] at checked
  have two := ratio_value 1 (l - 1)
  rw [Nat.cast_one, one_mul] at two
  obtain ⟨-, hb, ten⟩ := tenTo_value (l * 30103 / 100000 - 2)
  have hq := ratio_pos 1 (l - 1)
  rw [← ten, ← two, div_le_div_iff₀ (by exact_mod_cast hb) (by exact_mod_cast hq)]
  exact_mod_cast checked

/-- The size is at most one too many. -/
theorem decimalSize_low {num den : Nat} (hn : 0 < num) (hd : 0 < den)
    (low : -1100 ≤ (num.log2 : Int) - den.log2) (high : (num.log2 : Int) - den.log2 < 1100) :
    (10 : ℚ) ^ (decimalSize num den - 1) ≤ num / den := by
  have small : ∀ k, ¬num * (tenTo k).2 < (tenTo k).1 * den → (10 : ℚ) ^ k ≤ num / den := by
    intro k unfit
    obtain ⟨-, hb, ten⟩ := tenTo_value k
    rw [← ten, div_le_div_iff₀ (by exact_mod_cast hb) (by exact_mod_cast hd)]
    exact_mod_cast Nat.not_lt.mp unfit
  unfold decimalSize
  dsimp only
  generalize hl : (num.log2 : Int) - den.log2 = l at *
  simp only [decide_eq_true_eq]
  split
  · have same : l * 30103 / 100000 - 1 - 1 = l * 30103 / 100000 - 2 := by omega
    rw [same]
    refine (ten_le_two low high).trans ?_
    rw [← hl]
    exact (quotient_bounds hn hd).1.le
  · split
    · have same : l * 30103 / 100000 - 1 + 1 - 1 = l * 30103 / 100000 - 1 := by omega
      rw [same]
      exact small _ ‹_›
    · split
      · have same : l * 30103 / 100000 - 1 + 2 - 1 = l * 30103 / 100000 - 1 + 1 := by omega
        rw [same]
        exact small _ ‹_›
      · have same : l * 30103 / 100000 - 1 + 3 - 1 = l * 30103 / 100000 - 1 + 2 := by omega
        rw [same]
        exact small _ ‹_›

theorem log2_ratio {m : Nat} (hm : 0 < m) (e : Int) :
    0 < (ratio m e).1 ∧ ((ratio m e).1.log2 : Int) - (ratio m e).2.log2 = m.log2 + e := by
  unfold ratio
  split
  · refine ⟨hm, ?_⟩
    rw [twoTo_eq, Nat.log2_two_pow]
    dsimp only
    omega
  · have positive : 0 < m * 2 ^ e.natAbs := Nat.mul_pos hm (Nat.two_pow_pos _)
    have log : (m * 2 ^ e.natAbs).log2 = m.log2 + e.natAbs := by
      rw [Nat.log2_eq_iff positive.ne', Nat.pow_add, Nat.add_right_comm, Nat.pow_add]
      exact ⟨Nat.mul_le_mul_right _ (Nat.log2_self_le hm.ne'),
        Nat.mul_lt_mul_of_pos_right Nat.lt_log2_self (Nat.two_pow_pos _)⟩
    refine ⟨positive, ?_⟩
    rw [twoTo_eq, log, show Nat.log2 1 = 0 from rfl]
    omega

/-- The digits that are printed are covered. -/
theorem shortest_covers {m : Nat} {e : Int} (hm : 0 < m) (small : m < 2 ^ 53) (least : -1074 ≤ e)
    (most : e ≤ 971) :
    0 < (shortest m e).1 ∧ Covers m e ((shortest m e).1 * 10 ^ (shortest m e).2) := by
  obtain ⟨positive, size⟩ := log2_ratio hm e
  have log : m.log2 < 53 := (Nat.log2_lt hm.ne').mpr small
  have low := decimalSize_low positive (ratio_pos m e) (by omega) (by omega)
  rw [ratio_value] at low
  -- seventeen digits are enough
  obtain ⟨g, hg⟩ := gridPoint?_some (k := decimalSize (ratio m e).1 (ratio m e).2 - 17) hm small (by
    refine le_trans (le_of_eq ?_) low
    rw [← zpow_natCast, ← zpow_add₀ (by norm_num)]
    congr 1
    omega)
  have found : ∃ r, ((List.range 17).findSome? fun n =>
      (gridPoint? (neighbourhood m e) e
        (decimalSize (ratio m e).1 (ratio m e).2 - (n + 1 : Nat))).map
          (·, decimalSize (ratio m e).1 (ratio m e).2 - (n + 1 : Nat))) = some r := by
    rw [← Option.isSome_iff_exists, List.findSome?_isSome_iff]
    refine ⟨16, by decide, ?_⟩
    rw [Option.isSome_map, Option.isSome_iff_exists]
    exact ⟨g, hg⟩
  obtain ⟨r, hr⟩ := found
  obtain ⟨n, -, hn⟩ := List.exists_of_findSome?_eq_some hr
  obtain ⟨g', hg', rfl⟩ := Option.map_eq_some_iff.mp hn
  have same : shortest m e = (g', _) := congrArg (Option.getD · (0, 0)) hr
  rw [same]
  exact (gridPoint?_cases m e _).1 g' hg'

theorem least_bound : (10 : ℚ) ^ (-800 : Int) < 1 / 2 * 2 ^ (-1074 : Int) := by
  have whole : (2 : ℚ) ^ 1075 < 10 ^ 800 := by
    exact_mod_cast (by decide +kernel : 2 ^ 1075 < 10 ^ 800)
  have half : (1 / 2 * 2 ^ (-1074 : Int) : ℚ) = 2 ^ (-1075 : Int) := by
    rw [show (-1075 : Int) = -1074 - 1 from rfl, zpow_sub_one₀ two_ne_zero]
    ring
  rw [half, zpow_neg, zpow_neg]
  exact inv_strictAnti₀ (by positivity) (by exact_mod_cast whole)

theorem greatest_bound : (2 : ℚ) ^ 53 * 2 ^ (971 : Int) < 10 ^ (400 : Int) := by
  have whole : (2 : ℚ) ^ 1024 < 10 ^ 400 := by
    exact_mod_cast (by decide +kernel : 2 ^ 1024 < 10 ^ 400)
  rw [two_zpow_add, show ((53 : Nat) : Int) + 971 = (1024 : Nat) from rfl, zpow_natCast]
  exact whole

/-- What a number covers is neither too large nor too small for a power of ten. -/
theorem Covers.bounds {m : Nat} {e : Int} {x : ℚ} (h : Covers m e x) (hm : 0 < m)
    (small : m < 2 ^ 53) (least : -1074 ≤ e) (most : e ≤ 971) :
    (10 : ℚ) ^ (-800 : Int) < x ∧ x < 10 ^ (400 : Int) := by
  obtain ⟨⟨low, high⟩, -⟩ := h.halves hm
  have pos : (0 : ℚ) < 2 ^ e := by positivity
  have one : (1 : ℚ) ≤ m := by exact_mod_cast hm
  have small' : (m : ℚ) ≤ 2 ^ 53 - 1 := by
    rw [le_sub_iff_add_le]
    exact_mod_cast small
  rw [le_div_iff₀ pos] at low
  rw [div_le_iff₀ pos] at high
  constructor
  · calc (10 : ℚ) ^ (-800 : Int) < 1 / 2 * 2 ^ (-1074 : Int) := least_bound
      _ ≤ 1 / 2 * 2 ^ e := by gcongr; norm_num
      _ ≤ (m - 1 / 2) * 2 ^ e := by gcongr; linarith
      _ ≤ x := low
  · calc x ≤ (m + 1 / 2) * 2 ^ e := high
      _ ≤ 2 ^ 53 * 2 ^ e := by gcongr; linarith
      _ ≤ 2 ^ 53 * 2 ^ (971 : Int) := by gcongr; norm_num
      _ < 10 ^ (400 : Int) := greatest_bound

theorem log2_ten_le {n : Nat} (hn : 0 < n) : 10 ^ (n.log2 / 4) ≤ n :=
  calc 10 ^ (n.log2 / 4) ≤ 16 ^ (n.log2 / 4) := Nat.pow_le_pow_left (by decide) _
    _ = 2 ^ (4 * (n.log2 / 4)) := by rw [Nat.pow_mul]
    _ ≤ 2 ^ n.log2 := Nat.pow_le_pow_right (by decide) (by omega)
    _ ≤ n := Nat.log2_self_le hn.ne'

/-- Decimals that a number covers stand for it. -/
theorem ofDecimal_eq (negative : Bool) {m digits : Nat} {e k : Int} (hm : 0 < m)
    (canonical : Canonical (.finite negative m e)) (covers : Covers m e (digits * 10 ^ k)) :
    ofDecimal negative digits k = .finite negative m e := by
  cases id canonical with
  | finite _ small least most _ =>
    obtain ⟨low, high⟩ := covers.bounds hm small least most
    have positive : 0 < digits := by
      refine Nat.pos_of_ne_zero fun zero => ?_
      subst zero
      rw [Nat.cast_zero, zero_mul] at low
      exact absurd low (by positivity : (0 : ℚ) ≤ 10 ^ (-800 : Int)).not_gt
    have ten : (0 : ℚ) < 10 ^ k := by positivity
    have fits : ¬400 < ((Nat.log2 digits : Int) / 4) + k := by
      intro big
      have digits_low : (10 : ℚ) ^ (Nat.log2 digits / 4) ≤ digits := by
        exact_mod_cast log2_ten_le positive
      refine absurd high (not_lt.mpr ?_)
      calc (10 : ℚ) ^ (400 : Int) ≤ 10 ^ (((Nat.log2 digits / 4 : Nat) : Int) + k) := by
            gcongr
            · norm_num
            · omega
        _ = 10 ^ (Nat.log2 digits / 4) * 10 ^ k := by
            rw [zpow_add₀ (by norm_num), zpow_natCast]
        _ ≤ digits * 10 ^ k := by gcongr
    have enough : ¬(Nat.log2 digits : Int) + k < -800 := by
      intro tiny
      have digits_high : (digits : ℚ) ≤ 10 ^ (Nat.log2 digits + 1) := by
        exact_mod_cast (Nat.lt_log2_self.le.trans (Nat.pow_le_pow_left (by decide) _))
      refine absurd low (not_lt.mpr ?_)
      calc (digits : ℚ) * 10 ^ k ≤ 10 ^ (Nat.log2 digits + 1) * 10 ^ k := by gcongr
        _ = 10 ^ (((Nat.log2 digits + 1 : Nat) : Int) + k) := by
            rw [zpow_add₀ (by norm_num), zpow_natCast]
        _ ≤ 10 ^ (-800 : Int) := by
            gcongr
            · norm_num
            · omega
    rw [ofDecimal, if_neg positive.ne']
    dsimp only
    rw [if_neg fits, if_neg enough]
    split
    · obtain ⟨n, rfl⟩ : ∃ n : Nat, k = -(n : Int) := ⟨k.natAbs, by omega⟩
      refine round_eq negative (Nat.pow_pos (by decide)) hm canonical ?_
      rw [zpow_neg, zpow_natCast, ← div_eq_mul_inv] at covers
      rw [Int.natAbs_neg, Int.natAbs_natCast, Nat.pow_eq, Nat.cast_pow]
      exact covers
    · obtain ⟨n, rfl⟩ := Int.eq_ofNat_of_zero_le (Int.not_lt.mp ‹_›)
      refine round_eq negative Nat.one_pos hm canonical ?_
      rw [zpow_natCast] at covers
      rw [Int.natAbs_natCast, Nat.pow_eq, Nat.cast_one, div_one, Nat.cast_mul, Nat.cast_pow]
      exact covers

end TopicQueue.Double

namespace TopicQueue.Decimal

theorem natural_append (front back : List Char) :
    natural (front ++ back) = natural front * 10 ^ back.length + natural back := by
  have run : ∀ (n : Nat) (cs : List Char),
      cs.foldl (fun n d => n * 10 + (d.toNat - 48)) n = n * 10 ^ cs.length + natural cs := by
    intro n cs
    induction cs generalizing n with
    | nil => simp [natural]
    | cons c cs ih =>
      rw [natural, List.foldl_cons, List.foldl_cons, ih, ih, List.length_cons, Nat.pow_succ]
      ring
  rw [natural, List.foldl_append, run]
  rfl

theorem natural_replicate (zeros : Nat) : natural (List.replicate zeros '0') = 0 := by
  rw [← List.append_nil (List.replicate zeros '0'), natural_zeros]
  rfl

end TopicQueue.Decimal

namespace TopicQueue.Config

open Decimal

theorem decimalDigits_point {whole ds : List Char} (numeral : isNumeral whole = true)
    (digits : ∀ c ∈ ds, c.isDigit = true) : decimalDigits (whole ++ '.' :: ds) =
      some ((natural (whole ++ ds), -(ds.length : Int)), []) := by
  obtain ⟨nonempty, all⟩ := isNumeral_iff.mp numeral
  have front : (whole ++ '.' :: ds).span Char.isDigit = (whole, '.' :: ds) := by
    rw [List.span_eq_takeWhile_dropWhile, List.takeWhile_append_of_pos all,
      List.dropWhile_append_of_pos all]
    simp
  have back : ds.span Char.isDigit = (ds, []) := by
    rw [List.span_eq_takeWhile_dropWhile, List.takeWhile_eq_self_iff.mpr digits,
      List.dropWhile_eq_nil_iff.mpr digits]
  have some' : whole.isEmpty = false := by simpa using nonempty
  simp only [decimalDigits, front, back, some', Bool.false_and, Bool.false_eq_true, if_false]

/-- A fraction without the zeros at its end. -/
theorem trim_zeros (ds : List Char) : ∃ zeros,
    ds = (ds.reverse.dropWhile (· == '0')).reverse ++ List.replicate zeros '0' := by
  refine ⟨(ds.reverse.takeWhile (· == '0')).length, ?_⟩
  have all : ∀ c ∈ ds.reverse.takeWhile (· == '0'), c = '0' := fun c hc => by
    simpa using List.mem_takeWhile_imp hc
  rw [← List.reverse_replicate, ← List.eq_replicate_of_mem all, ← List.reverse_append,
    List.takeWhile_append_dropWhile, List.reverse_reverse]

theorem numeral_head {ds : List Char} (numeral : isNumeral ds = true) (more : List Char) :
    ∃ c cs, ds ++ more = c :: cs ∧ c.isDigit = true := by
  obtain ⟨nonempty, all⟩ := isNumeral_iff.mp numeral
  obtain ⟨c, cs, rfl⟩ := List.exists_cons_of_ne_nil nonempty
  exact ⟨c, cs ++ more, rfl, all c List.mem_cons_self⟩

/-- The digits of a fraction, filled up with zeros in front. -/
theorem padded_spec {n places : Nat} (positive : 0 < places) (below : n < 10 ^ places) :
    let ds := List.replicate (places - (Nat.toDigits 10 n).length) '0' ++ Nat.toDigits 10 n
    natural ds = n ∧ ds.length = places ∧ ∀ c ∈ ds, c.isDigit = true := by
  have size := Nat.toDigits_length 10 n places positive below
  obtain ⟨numeral, value⟩ := digits_iff.mpr
    ⟨places - (Nat.toDigits 10 n).length, rfl⟩
  refine ⟨value, ?_, (isNumeral_iff.mp numeral).2⟩
  rw [List.length_append, List.length_replicate]
  omega

/-- A decimal that is written out reads as a decimal of the same value. -/
theorem positional_reads (digits : Nat) (k : Int) :
    (∃ c cs, (Double.positional digits k).toList = c :: cs ∧ c.isDigit = true) ∧
    ∃ n s, decimalDigits (Double.positional digits k).toList = some ((n, s), []) ∧
      (n : ℚ) * 10 ^ s = digits * 10 ^ k := by
  have bare : ∀ n : Nat, (∃ c cs, (toString n).toList = c :: cs ∧ c.isDigit = true) ∧
      decimalDigits (toString n).toList = some ((n, 0), []) := fun n => by
    rw [toList_toString, decimalDigits_numeral (isNumeral_toDigits n), natural_toDigits]
    obtain ⟨c, cs, same, digit⟩ := numeral_head (isNumeral_toDigits n) []
    rw [List.append_nil] at same
    exact ⟨⟨c, cs, same, digit⟩, rfl⟩
  unfold Double.positional
  split
  · obtain ⟨n, rfl⟩ := Int.eq_ofNat_of_zero_le ‹0 ≤ k›
    obtain ⟨head, read⟩ := bare (digits * Nat.pow 10 n)
    refine ⟨head, _, _, read, ?_⟩
    rw [zpow_zero, mul_one, zpow_natCast, Nat.pow_eq, Nat.cast_mul, Nat.cast_pow]
    rfl
  · obtain ⟨places, rfl⟩ : ∃ n : Nat, k = -(n : Int) := ⟨k.natAbs, by omega⟩
    dsimp only
    rw [Int.natAbs_neg, Int.natAbs_natCast, Nat.pow_eq, toList_toString]
    have below : digits % 10 ^ places < 10 ^ places := Nat.mod_lt _ (Nat.pow_pos (by decide))
    obtain ⟨value, length, all⟩ := padded_spec (by omega) below
    have parts := Nat.div_add_mod digits (10 ^ places)
    generalize List.replicate (places - (Nat.toDigits 10 (digits % 10 ^ places)).length) '0' ++
      Nat.toDigits 10 (digits % 10 ^ places) = padded at *
    obtain ⟨zeros, trimmed⟩ := trim_zeros padded
    generalize (padded.reverse.dropWhile (· == '0')).reverse = ds at *
    subst trimmed
    rw [natural_append, List.length_replicate, natural_replicate, Nat.add_zero] at value
    rw [List.length_append, List.length_replicate] at length
    generalize digits / 10 ^ places = whole at *
    have total : digits = (whole * 10 ^ ds.length + natural ds) * 10 ^ zeros := by
      rw [← parts, ← value, ← length, Nat.pow_add]
      ring
    have scaled : ((whole * 10 ^ ds.length + natural ds : Nat) : ℚ) * 10 ^ (-(ds.length : Int)) =
        digits * 10 ^ (-(places : Int)) := by
      rw [total, ← length, zpow_neg, zpow_neg, zpow_natCast, zpow_natCast, pow_add]
      push_cast
      field_simp
    split
    · obtain rfl : ds = [] := List.isEmpty_iff.mp ‹_›
      obtain ⟨head, read⟩ := bare whole
      exact ⟨head, whole, 0, read, by simpa [natural] using scaled⟩
    · have chars : (toString whole ++ "." ++ String.ofList ds).toList =
          Nat.toDigits 10 whole ++ '.' :: ds := by
        simp
      rw [chars]
      refine ⟨numeral_head (isNumeral_toDigits whole) _, _, _,
        decimalDigits_point (isNumeral_toDigits whole)
          (fun c hc => all c (List.mem_append_left _ hc)), ?_⟩
      rw [natural_append, natural_toDigits]
      exact scaled

/-- A text that starts with a digit is none of the words for numbers. -/
theorem floatingNumber?_digits {s : String} {cs : List Char} {negative : Bool} {c : Char}
    {n : Nat} {scale : Int} (signed : sign s.toList = (negative, c :: cs))
    (digit : c.isDigit = true) (read : decimalDigits (c :: cs) = some ((n, scale), [])) :
    floatingNumber? s = some (.ofDecimal negative n scale) := by
  have noWord : ∀ w ∈ floatWords, (String.ofList (c :: cs)).map Char.toLower ≠ w := by
    rintro w hw rfl
    have head : ((String.ofList (c :: cs)).map Char.toLower).toList.head? = some c := by
      rw [String.toList_map, String.toList_ofList, List.map_cons, toLower_digit digit]
      rfl
    generalize (String.ofList (c :: cs)).map Char.toLower = w at *
    have letters : ∀ w ∈ floatWords, w.toList.head?.any Char.isDigit = false := by decide
    have letter := letters w hw
    rw [head, Option.any_some, digit] at letter
    cases letter
  have noInf := noWord "inf" (by decide)
  have noInfinity := noWord "infinity" (by decide)
  have noNan := noWord "nan" (by decide)
  simp only [floatingNumber?, signed, noInf, noInfinity, noNan, decide_false, Bool.or_self,
    Bool.false_eq_true, if_false, read, exponent?, Option.map_some, Int.add_zero]

/-- The magnitude of a finite number is written in digits, which stand for the number. -/
theorem magnitude_reads (negative : Bool) {m : Nat} {e : Int}
    (canonical : (Double.finite negative m e).Canonical) :
    ∃ c cs n s, (if m = 0 then "0" else
        Double.positional (Double.shortest m e).1 (Double.shortest m e).2).toList = c :: cs ∧
      c.isDigit = true ∧ decimalDigits (c :: cs) = some ((n, s), []) ∧
      Double.ofDecimal negative n s = .finite negative m e := by
  cases id canonical with
  | finite _ small least most full =>
    split
    · rename_i zero
      subst zero
      obtain rfl : e = -1074 := full.resolve_left (by decide)
      exact ⟨'0', [], 0, 0, rfl, rfl, rfl, rfl⟩
    · have positive := Nat.pos_of_ne_zero ‹¬m = 0›
      obtain ⟨-, covers⟩ := Double.shortest_covers positive small least most
      obtain ⟨⟨c, cs, chars, digit⟩, n, s, read, value⟩ :=
        positional_reads (Double.shortest m e).1 (Double.shortest m e).2
      rw [← value] at covers
      rw [chars] at read
      exact ⟨c, cs, n, s, chars, digit, read,
        Double.ofDecimal_eq negative positive canonical covers⟩

/-- What a double is printed as reads back as that double. -/
theorem floatingNumber?_text {d : Double} (canonical : d.Canonical) :
    floatingNumber? d.text = some d := by
  cases d with
  | nan => decide +kernel
  | infinite negative => cases negative <;> decide +kernel
  | finite negative m e =>
    obtain ⟨c, cs, n, s, chars, digit, read, value⟩ := magnitude_reads negative canonical
    have signed : sign (Double.finite negative m e).text.toList = (negative, c :: cs) := by
      cases negative with
      | true => rw [Double.text, if_pos rfl, String.toList_append, chars]; rfl
      | false => rw [Double.text, if_neg (by decide), chars, sign_digit digit]
    rw [floatingNumber?_digits signed digit read, value]

theorem ofDecimal_canonical (negative : Bool) (digits : Nat) (k : Int) :
    (Double.ofDecimal negative digits k).Canonical := by
  have zero : (Double.zero negative).Canonical :=
    .finite negative (by decide) (by decide) (by decide) (.inr rfl)
  unfold Double.ofDecimal
  split
  · exact zero
  dsimp only
  split
  · exact .infinite negative
  split
  · exact zero
  split
  · exact Double.round_canonical negative (Nat.pow_pos (by decide))
  · exact Double.round_canonical negative Nat.one_pos

theorem floatingNumber?_canonical {s : String} {d : Double} (h : floatingNumber? s = some d) :
    d.Canonical := by
  unfold floatingNumber? at h
  dsimp only at h
  split at h
  · cases h
    exact .infinite _
  split at h
  · cases h
    exact .nan
  split at h
  · cases h
  · obtain ⟨e, -, rfl⟩ := Option.map_eq_some_iff.mp h
    exact ofDecimal_canonical _ _ _

/-- A text that is a floating-point number is printed as one that reads as the same. -/
theorem real_reads_back {v : String} {d : Double} (h : floatingNumber? v = some d) :
    floatingNumber? d.text = some d :=
  floatingNumber?_text (floatingNumber?_canonical h)

end TopicQueue.Config

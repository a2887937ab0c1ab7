import Mathlib.Data.List.Basic
import Mathlib.Data.List.TakeDrop
import TopicQueue.Store.Entry

namespace TopicQueue

theorem Bytes.ofText_append (s t : String) :
    Bytes.ofText (s ++ t) = Bytes.ofText s ++ Bytes.ofText t := by
  simp [Bytes.ofText]

namespace StoredEntry
open Json

/-- The octet of a single digit. -/
def digitOctet (d : Nat) : UInt8 := (0x30 + d).toUInt8

theorem digits_of_lt : ∀ n < 10, digits n = [digitOctet n] := by decide

theorem digits_of_ge {n : Nat} (h : 10 ≤ n) : digits n = digits (n / 10) ++ digits (n % 10) := by
  simp only [digits, Nat.toString_eq_repr, ← Bytes.ofText_append]
  rw [Nat.repr_eq_repr_append_repr h]

theorem digits_ne_nil (n : Nat) : digits n ≠ [] := by
  by_cases h : n < 10
  · simp [digits_of_lt n h]
  · rw [digits_of_ge (by omega), digits_of_lt (n % 10) (by omega)]
    simp

theorem isDigit_digitOctet : ∀ d < 10, isDigit (digitOctet d) = true := by decide

theorem digitValue_digitOctet : ∀ d < 10, Numeral.digitValue (digitOctet d) = d := by decide

theorem digitOctet_ne_zero : ∀ d < 10, 0 < d → digitOctet d ≠ 0x30 := by decide

theorem digits_all_digit (n : Nat) : ∀ b ∈ digits n, isDigit b = true := by
  induction n using Nat.strongRecOn with
  | ind n ih =>
    by_cases h : n < 10
    · simp [digits_of_lt n h, isDigit_digitOctet n h]
    · intro b hb
      rw [digits_of_ge (by omega), digits_of_lt (n % 10) (by omega)] at hb
      rcases List.mem_append.mp hb with hb | hb
      · exact ih (n / 10) (by omega) b hb
      · rw [List.mem_singleton.mp hb]
        exact isDigit_digitOctet (n % 10) (by omega)

theorem digits_head_ne_zero {n : Nat} (hn : 0 < n) : (digits n).head? ≠ some 0x30 := by
  induction n using Nat.strongRecOn with
  | ind n ih =>
    by_cases h : n < 10
    · simpa [digits_of_lt n h] using digitOctet_ne_zero n h hn
    · rw [digits_of_ge (by omega), List.head?_append_of_ne_nil _ (digits_ne_nil (n / 10))]
      exact ih (n / 10) (by omega) (by omega)

/-- What follows a number and is not part of it. -/
def EndsNumber (rest : Bytes) : Prop :=
  ∀ b ∈ rest.head?, isDigit b = false ∧ b ≠ point ∧ isExponentMark b = false

theorem endsNumber_cons {b : UInt8} {rest : Bytes}
    (h : isDigit b = false ∧ b ≠ point ∧ isExponentMark b = false) : EndsNumber (b :: rest) := by
  intro c hc
  cases hc
  exact h

theorem span_digits {ds rest : Bytes} (hd : ∀ b ∈ ds, isDigit b = true) (hr : EndsNumber rest) :
    (ds ++ rest).span isDigit = (ds, rest) := by
  rw [List.span_eq_takeWhile_dropWhile, List.takeWhile_append_of_pos hd,
    List.dropWhile_append_of_pos hd]
  cases rest with
  | nil => simp
  | cons b rest =>
    have hb := (hr b rfl).1
    simp [hb]

theorem wholePart_digits (n : Nat) {rest : Bytes} (hr : EndsNumber rest) :
    Numeral.wholePart (digits n ++ rest) = .ok (digits n, rest) := by
  have hs := span_digits (digits_all_digit n) hr
  have hdigits : Numeral.digits (digits n ++ rest) = .ok (digits n, rest) := by
    unfold Numeral.digits
    rw [hs]
    cases h : digits n with
    | nil => exact absurd h (digits_ne_nil n)
    | cons b ds => rfl
  unfold Numeral.wholePart
  split
  · rename_i b tail he
    by_cases hn : 0 < n
    · have hz := digits_head_ne_zero hn
      have hhead : (digits n ++ rest).head? = (digits n).head? :=
        List.head?_append_of_ne_nil _ (digits_ne_nil n)
      rw [he] at hhead
      exact absurd hhead.symm hz
    · have h0 : digits n = [0x30] := by
        simp [Nat.eq_zero_of_not_pos hn, digits_of_lt, digitOctet]
      rw [h0] at he ⊢
      obtain ⟨-, hrest⟩ := List.cons.inj he
      have hb := (hr b (by simp [show rest = b :: tail from hrest])).1
      simp [hb, show rest = b :: tail from hrest]
  · exact hdigits

theorem fractionPart_none {rest : Bytes} (hr : EndsNumber rest) :
    Numeral.fractionPart rest = .ok (none, rest) := by
  cases rest with
  | nil => rfl
  | cons b rest => simp [Numeral.fractionPart, (hr b rfl).2.1]

theorem exponentPart_none {rest : Bytes} (hr : EndsNumber rest) :
    Numeral.exponentPart rest = .ok (none, rest) := by
  cases rest with
  | nil => rfl
  | cons b rest => simp [Numeral.exponentPart, (hr b rfl).2.2]

theorem read_digits (n : Nat) {rest : Bytes} (hr : EndsNumber rest) :
    Numeral.read (digits n ++ rest) = .ok (⟨false, digits n, none, none⟩, rest) := by
  have hw := wholePart_digits n hr
  cases hd : digits n with
  | nil => exact absurd hd (digits_ne_nil n)
  | cons b ds =>
    have hb : b ≠ minus := by
      rintro rfl
      exact absurd (digits_all_digit n minus (by simp [hd])) (by decide)
    rw [hd] at hw
    simp only [Numeral.read, List.cons_append, hb, if_false] at hw ⊢
    simp [hw, fractionPart_none hr, exponentPart_none hr, bind, Except.bind, pure, Except.pure]

theorem read_minus_digits (n : Nat) {rest : Bytes} (hr : EndsNumber rest) :
    Numeral.read (minus :: (digits n ++ rest)) = .ok (⟨true, digits n, none, none⟩, rest) := by
  simp [Numeral.read, wholePart_digits n hr, fractionPart_none hr, exponentPart_none hr, bind,
    Except.bind, pure, Except.pure]

theorem pushWhole_small (m d : Nat) (hd : d < 10) (h : m * 10 + d < Limit.bits64) :
    Numeral.Mantissa.pushWhole ⟨m, 0, false⟩ (digitOctet d) = ⟨m * 10 + d, 0, false⟩ := by
  simp [Numeral.Mantissa.pushWhole, digitValue_digitOctet d hd, h]

/-- The digits of a number of 64 bits are all significant. -/
theorem mantissa_digits (n : Nat) (h : n < Limit.bits64) :
    (digits n).foldl Numeral.Mantissa.pushWhole ⟨0, 0, false⟩ = ⟨n, 0, false⟩ := by
  induction n using Nat.strongRecOn with
  | ind n ih =>
    by_cases hn : n < 10
    · simpa [digits_of_lt n hn] using pushWhole_small 0 n hn (by omega)
    · rw [digits_of_ge (by omega), List.foldl_append, ih (n / 10) (by omega) (by omega),
        digits_of_lt (n % 10) (by omega)]
      simp only [List.foldl_cons, List.foldl_nil]
      rw [pushWhole_small (n / 10) (n % 10) (by omega) (by omega), Nat.mul_comm, Nat.div_add_mod]

theorem readNumber_digits (n : Nat) (h : n < Limit.bits64) {rest : Bytes} (hr : EndsNumber rest) :
    readNumber (digits n ++ rest) = .ok (.natural n, rest) := by
  have hv : (Numeral.mk false (digits n) none none).value? = some (.natural n) := by
    simp [Numeral.value?, Numeral.mantissa, mantissa_digits n h]
  simp [readNumber, read_digits n hr, hv, bind, Except.bind, pure, Except.pure]

theorem readNumber_minus_digits (n : Nat) (h0 : 0 < n) (h : n ≤ Limit.bits63) {rest : Bytes}
    (hr : EndsNumber rest) :
    readNumber (minus :: (digits n ++ rest)) = .ok (.negative n, rest) := by
  have h64 : n < Limit.bits64 := by
    simp only [Limit.bits63, Limit.bits64] at h ⊢
    omega
  have hv : (Numeral.mk true (digits n) none none).value? = some (.negative n) := by
    simp [Numeral.value?, Numeral.mantissa, mantissa_digits n h64, h0, h]
  simp [readNumber, read_minus_digits n hr, hv, bind, Except.bind, pure, Except.pure]

end StoredEntry

end TopicQueue

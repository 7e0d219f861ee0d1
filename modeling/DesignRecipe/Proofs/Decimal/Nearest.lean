import Mathlib.Algebra.Order.Field.Power
import Mathlib.Data.Rat.Cast.Order
import Mathlib.Tactic.FieldSimp
import Mathlib.Tactic.Linarith
import Mathlib.Tactic.Positivity
import Mathlib.Tactic.Ring

/-!
# The nearest whole number

The whole number nearest to a rational one is said without rounding anything (`IsNearest`): no other
one is nearer, and it is even if another one is equally near. There is at most one such number, and
it grows with what it is nearest to. All that has to be known of a rational number for this is where
it lies among the midpoints of neighbours: numbers that lie alike have the same nearest number
(`IsNearest.of_sides`).

So a quotient may be rounded to 53 binary digits first (`RoundsTo`) and then to a whole number. A
quotient by `b` that is not on a midpoint is at least `1 / (2 * b)` away from it. If the dividend
is less than `2 ^ 52`, the first rounding moves it by less than that, and midpoints stay where they
are, as they have 53 digits at most (`IsNearest.of_roundsTo`).
-/

namespace DesignRecipe.Decimal

/-- **The whole number nearest to a rational one.** Of two that are equally near it is the even
one. -/
structure IsNearest (x : ℚ) (n : ℕ) : Prop where
  nearest : ∀ k : ℤ, |x - n| ≤ |x - k|
  even : ∀ k : ℤ, k ≠ n → |x - k| = |x - n| → Even n

variable {x y : ℚ} {m n : ℕ}

/-- **The midpoints on both sides decide**: the number lies between them, or on one of them if the
nearest one is even. -/
theorem isNearest_iff : IsNearest x n ↔
    (n : ℚ) - 1 / 2 ≤ x ∧ x ≤ n + 1 / 2 ∧ (x = n - 1 / 2 ∨ x = n + 1 / 2 → Even n) := by
  constructor
  · intro h
    -- Both neighbours are compared with.
    have hbelow := h.nearest (n - 1)
    have habove := h.nearest (n + 1)
    push_cast at hbelow habove
    refine ⟨?_, ?_, ?_⟩
    · by_contra hlt
      rw [abs_of_nonpos (by linarith), le_abs'] at hbelow
      rcases hbelow with hbelow | hbelow <;> linarith
    · by_contra hlt
      rw [abs_of_nonneg (by linarith), le_abs'] at habove
      rcases habove with habove | habove <;> linarith
    · rintro (rfl | rfl)
      · refine h.even (n - 1) (by omega) ?_
        push_cast
        rw [abs_of_nonneg (by linarith), abs_of_nonpos (by linarith)]
        linarith
      · refine h.even (n + 1) (by omega) ?_
        push_cast
        rw [abs_of_nonpos (by linarith), abs_of_nonneg (by linarith)]
        linarith
  · rintro ⟨hlow, hhigh, heven⟩
    have hhalf : |x - n| ≤ 1 / 2 := abs_le.mpr ⟨by linarith, by linarith⟩
    -- Any other whole number is at least one away from this one.
    have hother : ∀ k : ℤ, k ≠ n → 1 ≤ |x - n| + |x - k| := by
      intro k hk
      have hone : (1 : ℚ) ≤ |(k : ℚ) - n| := by
        have hint : (1 : ℤ) ≤ |k - n| := Int.one_le_abs (sub_ne_zero.mpr hk)
        exact_mod_cast hint
      have htriangle := abs_sub_le (k : ℚ) x n
      rw [abs_sub_comm (k : ℚ) x] at htriangle
      linarith
    refine ⟨fun k => ?_, fun k hk heq => heven ?_⟩
    · rcases eq_or_ne k n with rfl | hk
      · exact le_rfl
      · have := hother k hk
        linarith
    · have := hother k hk
      have hexact : |x - n| = 1 / 2 := by linarith
      rcases abs_eq (by norm_num) |>.mp hexact with h | h
      · exact Or.inr (by linarith)
      · exact Or.inl (by linarith)

/-- **The nearest whole number grows** with the number that it is nearest to. -/
theorem IsNearest.mono (hx : IsNearest x m) (hy : IsNearest y n) (h : x ≤ y) : m ≤ n := by
  obtain ⟨hlow, -, hm⟩ := isNearest_iff.mp hx
  obtain ⟨-, hhigh, hn⟩ := isNearest_iff.mp hy
  by_contra hlt
  -- The two numbers would have to be the midpoint of two neighbours, and both of these even.
  have hle : (n : ℚ) + 1 ≤ m := by exact_mod_cast Nat.lt_of_not_le hlt
  have hmeven : Even m := hm (Or.inl (by linarith))
  have hneven : Even n := hn (Or.inr (by linarith))
  have hsucc : m = n + 1 := by
    have heq : (m : ℚ) = n + 1 := by linarith
    exact_mod_cast heq
  rw [hsucc, Nat.even_add_one] at hmeven
  exact hmeven hneven

/-- There is only one nearest whole number. -/
theorem IsNearest.unique (hm : IsNearest x m) (hn : IsNearest x n) : m = n :=
  Nat.le_antisymm (hm.mono hn le_rfl) (hn.mono hm le_rfl)

/-- A whole number is nearest to itself. -/
theorem isNearest_natCast (n : ℕ) : IsNearest n n :=
  isNearest_iff.mpr ⟨by linarith, by linarith, by rintro (h | h) <;> linarith⟩

/-- **Where a number lies among the midpoints** is all that counts. -/
theorem IsNearest.of_sides (h : IsNearest y n) (hx : 0 ≤ x)
    (hbelow : ∀ j : ℕ, x < j + 1 / 2 → y < j + 1 / 2)
    (habove : ∀ j : ℕ, (j : ℚ) + 1 / 2 < x → (j : ℚ) + 1 / 2 < y)
    (hon : ∀ j : ℕ, x = j + 1 / 2 → y = x) : IsNearest x n := by
  obtain ⟨hlow, hhigh, heven⟩ := isNearest_iff.mp h
  refine isNearest_iff.mpr ⟨?_, ?_, ?_⟩
  · cases n with
    | zero => push_cast; linarith
    | succ j =>
      by_contra hlt
      push_cast at hlt hlow
      have := hbelow j (by linarith)
      linarith
  · by_contra hlt
    have := habove n (by linarith)
    linarith
  · rintro (hmid | hmid)
    · cases n with
      | zero => push_cast at hmid; linarith
      | succ j =>
        rw [hon j (by push_cast at hmid; linarith)] at heven
        exact heven (Or.inl hmid)
    · rw [hon n hmid] at heven
      exact heven (Or.inr hmid)

/-! ### Rounding to 53 binary digits -/

/-- **A number rounded to 53 binary digits**: a whole number of units, the nearest one, where the
unit is the power of two for which the number has 53 digits before the point. -/
structure RoundsTo (x v : ℚ) : Prop where
  exists_unit : ∃ (e : ℤ) (r : ℕ), 2 ^ 52 * 2 ^ e ≤ x ∧ x < 2 ^ 53 * 2 ^ e ∧
    IsNearest (x / 2 ^ e) r ∧ v = r * 2 ^ e

variable {v : ℚ}

/-- **The error is relative**: a half of the last of 53 digits at most. -/
theorem RoundsTo.abs_sub_le (h : RoundsTo x v) : |v - x| ≤ x / 2 ^ 53 := by
  obtain ⟨e, r, hlow, -, hr, rfl⟩ := h.exists_unit
  have hunit : (0 : ℚ) < 2 ^ e := by positivity
  obtain ⟨hbelow, habove, -⟩ := isNearest_iff.mp hr
  have hx : x / 2 ^ e * 2 ^ e = x := div_mul_cancel₀ x hunit.ne'
  have hbelow := mul_le_mul_of_nonneg_right hbelow hunit.le
  have habove := mul_le_mul_of_nonneg_right habove hunit.le
  rw [hx] at hbelow habove
  rw [abs_le]
  constructor <;> linarith

/-- **What has 53 digits stays as it is.** -/
theorem RoundsTo.eq {a : ℕ} {f : ℤ} (h : RoundsTo x v) (hx : x = a * 2 ^ f)
    (hlt : x < 2 ^ 53 * 2 ^ f) : v = x := by
  obtain ⟨e, r, hlow, -, hr, rfl⟩ := h.exists_unit
  -- The unit is no larger than that of `x`, so `x` is a whole number of units.
  have hle : e ≤ f := by
    have hpow : (2 : ℚ) ^ e < 2 ^ (f + 1) := by
      rw [zpow_add₀ two_ne_zero, zpow_one]
      linarith
    have := (zpow_lt_zpow_iff_right₀ (by norm_num : (1 : ℚ) < 2)).mp hpow
    omega
  obtain ⟨k, hk⟩ := Int.le.dest hle
  have hwhole : x / 2 ^ e = (a * 2 ^ k : ℕ) := by
    rw [hx, ← hk, zpow_add₀ two_ne_zero, zpow_natCast]
    push_cast
    field_simp
  rw [hwhole] at hr
  rw [hr.unique (isNearest_natCast _), ← hwhole]
  exact div_mul_cancel₀ x (by positivity)

/-- Whole numbers below `2 ^ 53` stay as they are. -/
theorem RoundsTo.eq_natCast {n : ℕ} (h : RoundsTo n v) (hn : n < 2 ^ 53) : v = n := by
  have hlt : (n : ℚ) < 2 ^ 53 := by exact_mod_cast hn
  exact h.eq (a := n) (f := 0) (by simp) (by simpa using hlt)

/-! ### Rounding twice -/

section Quotient

variable {a b c : ℕ}

/-- **A quotient keeps away from the midpoints** that it is not on, by half of what one more in the
dividend would add. -/
theorem add_le_of_lt_midpoint (hb : 0 < b) {j : ℕ} (h : (a : ℚ) / b < j + 1 / 2) :
    (a : ℚ) / b + 1 / (2 * b) ≤ j + 1 / 2 := by
  have hpos : (0 : ℚ) < b := by exact_mod_cast hb
  rw [div_lt_iff₀ hpos] at h
  have hlt : 2 * a < (2 * j + 1) * b := by
    have hq : (2 * a : ℚ) < (2 * j + 1) * b := by linarith
    exact_mod_cast hq
  have hle : (2 * a : ℚ) + 1 ≤ (2 * j + 1) * b := by exact_mod_cast hlt
  have hsum : (a : ℚ) / b + 1 / (2 * b) = (2 * a + 1) / (2 * b) := by field_simp
  rw [hsum, div_le_iff₀ (by positivity)]
  linarith

theorem le_sub_of_midpoint_lt (hb : 0 < b) {j : ℕ} (h : (j : ℚ) + 1 / 2 < a / b) :
    (j : ℚ) + 1 / 2 ≤ a / b - 1 / (2 * b) := by
  have hpos : (0 : ℚ) < b := by exact_mod_cast hb
  rw [lt_div_iff₀ hpos] at h
  have hlt : (2 * j + 1) * b < 2 * a := by
    have hq : ((2 * j + 1) * b : ℚ) < 2 * a := by linarith
    exact_mod_cast hq
  have hle : ((2 * j + 1) * b : ℚ) + 1 ≤ 2 * a := by exact_mod_cast hlt
  have hdiff : (a : ℚ) / b - 1 / (2 * b) = (2 * a - 1) / (2 * b) := by field_simp
  rw [hdiff, le_div_iff₀ (by positivity)]
  linarith

/-- **A quotient that has been rounded** lies among the midpoints as the quotient itself, so it has
the same nearest whole number. The dividend must have 52 digits at most: then the error is less than
the distance that a quotient keeps from midpoints, and the midpoints have no more than 53 digits. -/
theorem IsNearest.of_roundsTo {n : ℕ} (ha : a < 2 ^ 52) (hb : 0 < b) (hv : RoundsTo (a / b) v)
    (hn : IsNearest v n) : IsNearest (a / b) n := by
  have hpos : (0 : ℚ) < b := by exact_mod_cast hb
  have hone : (1 : ℚ) ≤ b := by exact_mod_cast hb
  have ha' : (a : ℚ) < 2 ^ 52 := by exact_mod_cast ha
  have herror : |v - a / b| < 1 / (2 * b) := by
    refine lt_of_le_of_lt hv.abs_sub_le ?_
    rw [div_div, div_lt_div_iff₀ (by positivity) (by positivity)]
    nlinarith
  obtain ⟨hbelow, habove⟩ := abs_lt.mp herror
  refine hn.of_sides (by positivity) (fun j hj => ?_) (fun j hj => ?_) (fun j hj => ?_)
  · have := add_le_of_lt_midpoint hb hj
    linarith
  · have := le_sub_of_midpoint_lt hb hj
    linarith
  · refine hv.eq (a := 2 * j + 1) (f := -1) ?_ ?_
    · rw [hj]
      push_cast
      norm_num
      ring
    · have hle : (a : ℚ) / b ≤ a := div_le_self (by positivity) hone
      norm_num
      linarith

/-- **The divisor may have been rounded too**, and it may stand for a larger one: that takes more
than 53 digits, so that the quotient is less than a half with either divisor. -/
theorem IsNearest.of_roundsTo_divisor {w : ℚ} {n : ℕ} (ha : a < 2 ^ 52) (hb : 0 < b)
    (hc : c = b ∨ 2 ^ 53 ≤ c ∧ c ≤ b) (hw : RoundsTo c w) (hv : RoundsTo (a / w) v)
    (hn : IsNearest v n) : IsNearest (a / b) n := by
  rcases Nat.lt_or_ge c (2 ^ 53) with hlt | hge
  · obtain rfl : c = b := hc.resolve_right fun h => absurd h.1 (by omega)
    rw [hw.eq_natCast hlt] at hv
    exact hn.of_roundsTo ha hb hv
  · have hcb : c ≤ b := hc.elim (fun h => h.le) And.right
    have hc' : (2 : ℚ) ^ 53 ≤ c := by exact_mod_cast hge
    have hb' : (2 : ℚ) ^ 53 ≤ b := by exact_mod_cast hge.trans hcb
    have ha' : (a : ℚ) + 1 ≤ 2 ^ 52 := by exact_mod_cast ha
    -- The rounded divisor is at least `2 ^ 53 - 1`, and the rounded quotient hardly larger.
    have hw' : (2 : ℚ) ^ 53 - 1 ≤ w := by
      obtain ⟨hbelow, -⟩ := abs_le.mp hw.abs_sub_le
      linarith
    have hquotient : (a : ℚ) / w ≤ (2 ^ 52 - 1) / (2 ^ 53 - 1) := by
      rw [div_le_div_iff₀ (by linarith) (by norm_num)]
      nlinarith
    have hhalf : v < 1 / 2 := by
      obtain ⟨-, habove⟩ := abs_le.mp hv.abs_sub_le
      norm_num at hquotient habove ⊢
      linarith
    obtain rfl : n = 0 := by
      obtain ⟨hlow, -, -⟩ := isNearest_iff.mp hn
      have hone : (n : ℚ) < 1 := by linarith
      exact Nat.lt_one_iff.mp (by exact_mod_cast hone)
    have hsmall : (a : ℚ) / b < 1 / 2 := by
      rw [div_lt_iff₀ (by linarith)]
      linarith
    have hnonneg : (0 : ℚ) ≤ a / b := by positivity
    rw [isNearest_iff]
    push_cast
    exact ⟨by linarith, by linarith, by rintro (h | h) <;> linarith⟩

end Quotient

end DesignRecipe.Decimal

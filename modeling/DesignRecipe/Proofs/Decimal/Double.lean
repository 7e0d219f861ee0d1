import DesignRecipe.Proofs.Decimal.Nearest
import DesignRecipe.Decimal.Shortest
import Mathlib

/-!
# What doubles hold

The arithmetic of doubles is defined on their bits: operands are unpacked into a sign, a whole
number and an exponent, and the result is rounded and packed again. Here it is read as arithmetic of
rational numbers. A double holds a whole number of units, of 53 binary digits (`Holds`). A machine
word becomes the double nearest to it (`exists_holds_toFloat`), and a quotient the double nearest to
the quotient of what the operands hold (`exists_holds_div`).

A result is computed up to what is left behind its last digit: nothing, less than a half, a half,
or more. This is followed through (`Leaves`): it is right for the remainder of a division, each bit
that is shifted out keeps it right, and at the end it says which way to round.
-/

namespace DesignRecipe.Decimal

open Float.Model (Format UnpackedFloat totalExponent)
open Float.Model.UnpackedFloat

/-! ### Rounding with what is left over -/

/-- **What is left of a number** behind a whole one, by the half that it is compared with. -/
inductive Leaves (x : ℚ) (m : ℕ) : Accuracy → Prop
  | nothing (h : x = m) : Leaves x m .exact
  | less (low : m < x) (high : x < m + 1 / 2) : Leaves x m (.inexact .lt)
  | half (h : x = m + 1 / 2) : Leaves x m (.inexact .eq)
  | more (low : m + 1 / 2 < x) (high : x < m + 1) : Leaves x m (.inexact .gt)

variable {x : ℚ} {m : ℕ} {accuracy : Accuracy}

@[simp]
theorem leaves_exact : Leaves x m .exact ↔ x = m :=
  ⟨fun | .nothing h => h, .nothing⟩

@[simp]
theorem leaves_lt : Leaves x m (.inexact .lt) ↔ m < x ∧ x < m + 1 / 2 :=
  ⟨fun | .less low high => ⟨low, high⟩, fun ⟨low, high⟩ => .less low high⟩

@[simp]
theorem leaves_eq : Leaves x m (.inexact .eq) ↔ x = m + 1 / 2 :=
  ⟨fun | .half h => h, .half⟩

@[simp]
theorem leaves_gt : Leaves x m (.inexact .gt) ↔ m + 1 / 2 < x ∧ x < m + 1 :=
  ⟨fun | .more low high => ⟨low, high⟩, fun ⟨low, high⟩ => .more low high⟩

theorem Leaves.bounds (h : Leaves x m accuracy) : (m : ℚ) ≤ x ∧ x < m + 1 := by
  cases h <;> constructor <;> linarith

/-- **Rounding by what is left** gives the nearest whole number. -/
theorem Leaves.isNearest (h : Leaves x m accuracy) :
    IsNearest x (accuracy.roundToNearestEven m) := by
  cases h with
  | nothing h =>
    obtain rfl := h
    exact isNearest_natCast m
  | less low high =>
    rw [Accuracy.roundToNearestEven, isNearest_iff]
    exact ⟨by linarith, high.le, by rintro (h | h) <;> linarith⟩
  | half h =>
    obtain rfl := h
    rw [Accuracy.roundToNearestEven]
    rcases Nat.even_or_odd m with heven | hodd
    · rw [Nat.even_iff.mp heven, add_zero]
      exact isNearest_iff.mpr ⟨by linarith, by linarith, fun _ => heven⟩
    · rw [Nat.odd_iff.mp hodd, isNearest_iff]
      push_cast
      exact ⟨by linarith, by linarith, fun _ => hodd.add_one⟩
  | more low high =>
    rw [Accuracy.roundToNearestEven, isNearest_iff]
    push_cast
    exact ⟨by linarith, by linarith, by rintro (h | h) <;> linarith⟩

/-- A division with remainder tells what the quotient leaves. -/
theorem leaves_div (n : ℕ) {d : ℕ} (hd : 0 < d) :
    Leaves ((n : ℚ) / d) (n / d) (accuracyOfFraction (n % d) d) := by
  have hpos : (0 : ℚ) < d := by exact_mod_cast hd
  have hn : (n : ℚ) / d = (n / d : ℕ) + (n % d : ℕ) / d := by
    have hsum : (n : ℚ) = d * (n / d : ℕ) + (n % d : ℕ) := by
      exact_mod_cast (Nat.div_add_mod n d).symm
    rw [div_eq_iff hpos.ne', add_mul, div_mul_cancel₀ _ hpos.ne', mul_comm _ (d : ℚ)]
    exact hsum
  have hlt : ((n % d : ℕ) : ℚ) < d := by exact_mod_cast Nat.mod_lt n hd
  rw [hn]
  generalize n / d = q at *
  generalize n % d = r at *
  rw [accuracyOfFraction]
  split
  · next hr => exact .nothing (by simp [hr])
  · next hr =>
    have hr : (0 : ℚ) < r := by exact_mod_cast Nat.pos_of_ne_zero hr
    rcases hcompare : compare (2 * r) d with _ | _ | _
    · have hless : (2 : ℚ) * r < d := by exact_mod_cast Nat.compare_eq_lt.mp hcompare
      have hpart : 0 < (r : ℚ) / d := div_pos hr hpos
      have hhalf : (r : ℚ) / d < 1 / 2 := by rw [div_lt_iff₀ hpos]; linarith
      exact .less (by linarith) (by linarith)
    · have heq : (2 : ℚ) * r = d := by exact_mod_cast Nat.compare_eq_eq.mp hcompare
      have hhalf : (r : ℚ) / d = 1 / 2 := by rw [div_eq_iff hpos.ne']; linarith
      exact .half (by rw [hhalf])
    · have hgreater : (d : ℚ) < 2 * r := by exact_mod_cast Nat.compare_eq_gt.mp hcompare
      have hhalf : 1 / 2 < (r : ℚ) / d := by rw [lt_div_iff₀ hpos]; linarith
      have hone : (r : ℚ) / d < 1 := by rw [div_lt_iff₀ hpos]; linarith
      exact .more (by linarith) (by linarith)

/-- Halving a number: the last bit says on which side of the midpoint the half lies. -/
theorem Leaves.shiftRightOne {em : ExtendedMantissa} (h : Leaves x em.mantissa em.accuracy) :
    Leaves (x / 2) em.shiftRightOne.mantissa em.shiftRightOne.accuracy := by
  obtain ⟨m, roundBit, stickyBit⟩ := em
  have hm : (m : ℚ) = 2 * (m / 2 : ℕ) + (m % 2 : ℕ) := by
    exact_mod_cast (Nat.div_add_mod m 2).symm
  have hbit : (1 != 0) = true := rfl
  -- The bit that is shifted out and the two behind it tell all cases apart.
  rcases Nat.mod_two_eq_zero_or_one m with hmod | hmod <;>
    cases roundBit <;> cases stickyBit <;>
    simp only [ExtendedMantissa.accuracy, ExtendedMantissa.shiftRightOne, hmod, hm, hbit,
      bne_self_eq_false, Bool.or_false, Bool.or_true, leaves_exact, leaves_lt, leaves_eq,
      leaves_gt] at h ⊢ <;>
    norm_num at h ⊢ <;> first | linarith | (constructor <;> linarith)

/-- Bits that are shifted out one by one. -/
theorem Leaves.shiftRight {em : ExtendedMantissa} (h : Leaves x em.mantissa em.accuracy) (k : ℕ) :
    Leaves (x / 2 ^ k) (em >>> k).mantissa (em >>> k).accuracy := by
  show Leaves (x / 2 ^ k) (k.repeat ExtendedMantissa.shiftRightOne em).mantissa
    (k.repeat ExtendedMantissa.shiftRightOne em).accuracy
  induction k with
  | zero =>
    rw [pow_zero, div_one]
    exact h
  | succ k ih =>
    rw [pow_succ, ← div_div]
    exact ih.shiftRightOne

/-- A whole number with what is left, before any bit is shifted out. -/
theorem Leaves.start (h : Leaves x m accuracy) :
    Leaves x (ExtendedMantissa.ofMantissaAndAccuracy m accuracy).mantissa
      (ExtendedMantissa.ofMantissaAndAccuracy m accuracy).accuracy := by
  cases accuracy with
  | exact => exact h
  | inexact o => cases o <;> exact h

/-! ### Rounding to a double -/

/-- The unit of a double is that of the last of 53 digits. -/
theorem targetExponent_eq {m : ℕ} {e : ℤ} (h : -1074 ≤ (m.log2 : ℤ) + e - 52) :
    Format.binary64.targetExponent (totalExponent m e) = (m.log2 : ℤ) + e - 52 := by
  simp only [Format.targetExponent, totalExponent, Format.mantissaBits, Format.minExponent]
  norm_num
  omega

/-- **The first shift**: the bits below the unit of a double are shifted out, and the rest is
rounded by what is left. -/
theorem exists_firstShift {e : ℤ} (hm : 2 ^ 52 ≤ m) (he : -1074 ≤ e) (hx : Leaves x m accuracy) :
    ∃ em, shiftToTargetExponent Format.binary64 m e accuracy = (em, e + m.log2 - 52) ∧
      2 ^ 52 ≤ em.roundedMantissa ∧ em.roundedMantissa ≤ 2 ^ 53 ∧
      RoundsTo (x * 2 ^ e) (em.roundedMantissa * 2 ^ (e + m.log2 - 52)) := by
  have hpos : m ≠ 0 := by omega
  obtain ⟨k, hk⟩ : ∃ k, m.log2 = 52 + k :=
    ⟨_, (Nat.add_sub_cancel' ((Nat.le_log2 hpos).mpr hm)).symm⟩
  have hexponent : e + m.log2 - 52 = e + k := by omega
  have hshift : (Format.binary64.targetExponent (totalExponent m e) - e).toNat = k := by
    rw [targetExponent_eq (by omega)]
    omega
  -- The number has 53 digits before the point in the new unit.
  have hlow : (2 : ℚ) ^ 52 ≤ x / 2 ^ k := by
    have hbits : (2 : ℚ) ^ (52 + k) ≤ m := by exact_mod_cast hk ▸ Nat.log2_self_le hpos
    rw [le_div_iff₀ (by positivity), ← pow_add]
    exact hbits.trans hx.bounds.1
  have hhigh : x / 2 ^ k < 2 ^ 53 := by
    have hlt : m < 2 ^ (52 + k + 1) := hk ▸ Nat.lt_log2_self
    have hbits : (m : ℚ) + 1 ≤ 2 ^ (53 + k) := by
      rw [show 53 + k = 52 + k + 1 by omega]
      exact_mod_cast hlt
    rw [div_lt_iff₀ (by positivity), ← pow_add]
    exact hx.bounds.2.trans_le hbits
  have hround : IsNearest (x / 2 ^ k)
      (ExtendedMantissa.ofMantissaAndAccuracy m accuracy >>> k).roundedMantissa :=
    (hx.start.shiftRight k).isNearest
  have hfirst : shiftToTargetExponent Format.binary64 m e accuracy =
      (ExtendedMantissa.ofMantissaAndAccuracy m accuracy >>> k, e + k) := by
    simp only [shiftToTargetExponent, shiftToExponent, hshift]
  rw [hexponent]
  refine ⟨_, hfirst, (isNearest_natCast (2 ^ 52)).mono hround (by exact_mod_cast hlow),
    hround.mono (isNearest_natCast (2 ^ 53)) (by exact_mod_cast hhigh.le), ?_⟩
  have hunit : (0 : ℚ) < 2 ^ (e + k) := by positivity
  have hx' : x / 2 ^ k * 2 ^ (e + k) = x * 2 ^ e := by
    rw [zpow_add₀ two_ne_zero, zpow_natCast]
    field_simp
  refine ⟨e + k, _, ?_, ?_, ?_, rfl⟩
  · rw [← hx']
    exact mul_le_mul_of_nonneg_right hlow hunit.le
  · rw [← hx']
    exact mul_lt_mul_of_pos_right hhigh hunit
  · rw [← hx', mul_div_cancel_right₀ _ hunit.ne']
    exact hround

/-- **The second shift**: a carry out of the first digit makes the unit twice as large, and the
value stays as it is. -/
theorem exists_secondShift {r : ℕ} {f : ℤ} (hr : 2 ^ 52 ≤ r) (hr' : r ≤ 2 ^ 53) (hf : -1074 ≤ f) :
    ∃ (em : ExtendedMantissa) (f' : ℤ),
      shiftToTargetExponent Format.binary64 r f .exact = (em, f') ∧
      2 ^ 52 ≤ em.mantissa ∧ em.mantissa < 2 ^ 53 ∧ f ≤ f' ∧ f' ≤ f + 1 ∧
      (em.mantissa * 2 ^ f' : ℚ) = r * 2 ^ f := by
  rcases hr'.lt_or_eq with hlt | rfl
  · have hlog : r.log2 = 52 := (Nat.log2_eq_iff (by omega)).mpr ⟨hr, hlt⟩
    have hshift : (Format.binary64.targetExponent (totalExponent r f) - f).toNat = 0 := by
      rw [targetExponent_eq (by omega), hlog]
      omega
    refine ⟨⟨r, false, false⟩, f, ?_, hr, hlt, le_rfl, by omega, rfl⟩
    simp only [shiftToTargetExponent, shiftToExponent, hshift]
    exact Prod.ext rfl (add_zero f)
  · have hlog : Nat.log2 (2 ^ 53) = 53 := Nat.log2_two_pow
    have hshift : (Format.binary64.targetExponent (totalExponent (2 ^ 53) f) - f).toNat = 1 := by
      rw [targetExponent_eq (by omega), hlog]
      omega
    refine ⟨⟨2 ^ 52, false, false⟩, f + 1, ?_, le_rfl, by norm_num, by omega, le_rfl, ?_⟩
    · simp only [shiftToTargetExponent, shiftToExponent, hshift]
      exact Prod.ext rfl rfl
    · rw [zpow_add₀ two_ne_zero, zpow_one]
      norm_num
      ring

/-- **Rounding to a double**: a number with 53 digits before the point or more, in units of a power
of two, is rounded to 53 digits. -/
theorem exists_roundWithAccuracy {e : ℤ} (s : Sign) (hm : 2 ^ 52 ≤ m) (he : -1074 ≤ e)
    (hx : Leaves x m accuracy) : ∃ (r : ℕ) (f : ℤ) (hpos : 0 < r),
      roundWithAccuracy Format.binary64 s m e accuracy = .finite s r f hpos ∧
      2 ^ 52 ≤ r ∧ r < 2 ^ 53 ∧ e + m.log2 - 52 ≤ f ∧ f ≤ e + m.log2 - 51 ∧
      RoundsTo (x * 2 ^ e) (r * 2 ^ f) := by
  obtain ⟨em, hfirst, hlow, hhigh, hrounds⟩ := exists_firstShift hm he hx
  have hlog : 52 ≤ m.log2 := (Nat.le_log2 (by omega)).mpr hm
  obtain ⟨em', f, hsecond, hr, hr', hf, hf', hvalue⟩ :=
    exists_secondShift (f := e + m.log2 - 52) hlow hhigh (by omega)
  have hne : em'.mantissa ≠ 0 := by omega
  refine ⟨em'.mantissa, f, Nat.pos_of_ne_zero hne, ?_, hr, hr', hf, by omega, hvalue ▸ hrounds⟩
  simp only [roundWithAccuracy, hfirst, hsecond]
  exact dif_neg hne

/-! ### What the bits stand for -/

section Bits

variable {e : ℤ}

/-- The digits behind the first one, with the first one in front again. -/
theorem toNat_one_append (digits : BitVec 52) : (1#1 ++ digits).toNat = 2 ^ 52 + digits.toNat := by
  rw [BitVec.toNat_append, ← Nat.shiftLeft_add_eq_or_of_lt digits.isLt, Nat.shiftLeft_eq]
  rfl

/-- **A double is unpacked as it was packed.** -/
theorem unpack_pack (hpos : 0 < m) (hm : 2 ^ 52 ≤ m) (hm' : m < 2 ^ 53) (he : -1074 ≤ e)
    (he' : e ≤ 971) : unpack Format.binary64 (pack Format.binary64 (.finite .positive m e hpos)) =
      .finite .positive m e hpos := by
  have hlog : m.log2 = 52 := (Nat.log2_eq_iff hpos.ne').mpr ⟨hm, hm'⟩
  have hbias : (Format.binary64.exponentBias : ℤ) = 1023 := rfl
  obtain ⟨b, hb⟩ : ∃ b : ℕ, e = b - 1075 := ⟨(e + 1075).toNat, by omega⟩
  have hbiased : (e + (Format.binary64.exponentBias : ℤ) + (52 : ℕ)).toNat = b := by omega
  have hbits : (BitVec.ofNat 11 b).toNat = b := by
    rw [BitVec.toNat_ofNat, Nat.mod_eq_of_lt (by omega)]
  have hpack : pack Format.binary64 (.finite .positive m e hpos) =
      packComponents Format.binary64 .positive (BitVec.ofNat 11 b) (BitVec.ofNat 52 m) := by
    simp only [pack, hbiased, hlog]
    rw [if_neg (by omega), if_pos (by rfl)]
  have hinfinite : BitVec.ofNat 11 b ≠ -1#11 := by
    intro h
    rw [h] at hbits
    exact absurd hbits (by simp; omega)
  have hsubnormal : BitVec.ofNat 11 b ≠ 0#11 := by
    intro h
    rw [h] at hbits
    exact absurd hbits (by simp; omega)
  have hdigits : (1#1 ++ BitVec.ofNat 52 m).toNat = m := by
    rw [toNat_one_append, BitVec.toNat_ofNat]
    omega
  rw [hpack, unpack]
  simp only [unpackMantissa_packComponents, unpackExponent_packComponents,
    unpackSign_packComponents, Sign.ofBitVec_toBitVec, if_neg hinfinite, if_neg hsubnormal, hbits,
    hdigits]
  congr 1
  omega

theorem toNat_unpackExponent (bits : UInt64) :
    (@unpackExponent Format.binary64 bits.toBitVec).toNat = bits.toNat / 2 ^ 52 % 2 ^ 11 := by
  rw [unpackExponent_def, BitVec.extractLsb'_toNat, Nat.shiftRight_eq_div_pow]
  rfl

theorem toNat_unpackMantissa (bits : UInt64) :
    (@unpackMantissa Format.binary64 bits.toBitVec).toNat = bits.toNat % 2 ^ 52 := by
  rw [unpackMantissa_def, BitVec.extractLsb'_toNat, Nat.shiftRight_zero]
  rfl

/-- The two parts of the bits, as they are cut out for a magnitude. -/
theorem magnitude_ofBits_eq (bits : UInt64) : Magnitude.ofBits bits =
    if bits.toNat / 2 ^ 52 % 2 ^ 11 = 0 then ⟨bits.toNat % 2 ^ 52, -1074, false⟩
    else ⟨2 ^ 52 + bits.toNat % 2 ^ 52, (bits.toNat / 2 ^ 52 % 2 ^ 11 : ℕ) - 1075,
      bits.toNat % 2 ^ 52 = 0 && bits.toNat / 2 ^ 52 % 2 ^ 11 > 1⟩ := by
  have hexponent : ((bits >>> 52) &&& 0x7FF).toNat = bits.toNat / 2 ^ 52 % 2 ^ 11 := by
    rw [UInt64.toNat_and, UInt64.toNat_shiftRight, Nat.shiftRight_eq_div_pow]
    exact Nat.and_two_pow_sub_one_eq_mod _ 11
  have hfraction : (bits &&& 0xFFFFFFFFFFFFF).toNat = bits.toNat % 2 ^ 52 := by
    rw [UInt64.toNat_and]
    exact Nat.and_two_pow_sub_one_eq_mod _ 52
  simp only [Magnitude.ofBits, hexponent, hfraction]
  rfl

/-- **The magnitude of a double** is what its bits are unpacked to. -/
theorem magnitude_ofBits {bits : UInt64} {s : Sign} {hpos : 0 < m} (hm : 2 ^ 52 ≤ m)
    (h : unpack Format.binary64 bits.toBitVec = .finite s m e hpos) :
    (Magnitude.ofBits bits).significand = m ∧ (Magnitude.ofBits bits).exponent = e := by
  have hbias : (Format.binary64.exponentBias : ℤ) = 1023 := rfl
  have hexponent := toNat_unpackExponent bits
  have hmantissa := toNat_unpackMantissa bits
  rw [unpack] at h
  dsimp only at h
  split at h
  · split at h <;> exact absurd h (by simp)
  · split at h
    · split at h
      · exact absurd h (by simp)
      · -- A number below the normal ones has less than 53 digits.
        simp only [finite.injEq] at h
        have := Nat.mod_lt bits.toNat (y := 2 ^ 52) (by norm_num)
        omega
    · next hne =>
      have hne : bits.toNat / 2 ^ 52 % 2 ^ 11 ≠ 0 := by
        intro hzero
        exact hne (BitVec.eq_of_toNat_eq (hexponent.trans hzero))
      simp only [finite.injEq] at h
      obtain ⟨-, hm, he⟩ := h
      have hdigits := toNat_one_append (@unpackMantissa Format.binary64 bits.toBitVec)
      rw [magnitude_ofBits_eq, if_neg hne]
      refine ⟨?_, ?_⟩
      · show 2 ^ 52 + bits.toNat % 2 ^ 52 = m
        rw [← hm, ← hmantissa]
        exact hdigits.symm
      · show ((bits.toNat / 2 ^ 52 % 2 ^ 11 : ℕ) : ℤ) - 1075 = e
        rw [← he, ← hexponent, hbias]
        rfl

end Bits

/-! ### Arithmetic of doubles -/

/-- **A double holds a positive number**: `m` units of `2 ^ e`, where `m` has 53 digits. -/
structure Holds (a : Float) (m : ℕ) (e : ℤ) : Prop where
  unpack_eq : ∃ hpos, a.toModel.unpack = .finite .positive m e hpos
  low : 2 ^ 52 ≤ m
  high : m < 2 ^ 53

variable {a b : Float} {m n : ℕ} {e f : ℤ}

theorem Holds.of_pack (hpos : 0 < m) (hm : 2 ^ 52 ≤ m) (hm' : m < 2 ^ 53) (he : -1074 ≤ e)
    (he' : e ≤ 971) (ha : a.toModel = Float.Model.pack (.finite .positive m e hpos)) :
    Holds a m e :=
  ⟨⟨hpos, by rw [ha]; exact unpack_pack hpos hm hm' he he'⟩, hm, hm'⟩

/-- The magnitude of a double is the number that it holds. -/
theorem Holds.magnitude (h : Holds a m e) : (Magnitude.ofBits a.toBits).significand = m ∧
    (Magnitude.ofBits a.toBits).exponent = e := by
  obtain ⟨hpos, heq⟩ := h.unpack_eq
  exact magnitude_ofBits h.low heq

/-- **A number that is rounded to a double** is held by it up to the rounding. -/
theorem exists_holds_of_leaves (hm : 2 ^ 52 ≤ m) (he : -1074 ≤ e) (he' : e + m.log2 ≤ 1000)
    (hx : Leaves x m accuracy) (ha : a.toModel =
      Float.Model.pack (roundWithAccuracy Format.binary64 .positive m e accuracy)) :
    ∃ r f, Holds a r f ∧ e + m.log2 - 52 ≤ f ∧ f ≤ e + m.log2 - 51 ∧
      RoundsTo (x * 2 ^ e) (r * 2 ^ f) := by
  have hlog : 52 ≤ m.log2 := (Nat.le_log2 (by omega)).mpr hm
  obtain ⟨r, f, hpos, hround, hr, hr', hf, hf', hrounds⟩ :=
    exists_roundWithAccuracy .positive hm he hx
  exact ⟨r, f, .of_pack hpos hr hr' (by omega) (by omega) (ha.trans (by rw [hround])),
    hf, hf', hrounds⟩

theorem log2_shiftLeft {n : ℕ} (hn : n ≠ 0) (k : ℕ) : (n <<< k).log2 = n.log2 + k := by
  induction k with
  | zero => rfl
  | succ k ih =>
    have hne : n <<< k ≠ 0 := (Nat.shiftLeft_pos_iff.mpr (Nat.pos_of_ne_zero hn)).ne'
    rw [Nat.shiftLeft_succ, Nat.log2_two_mul hne, ih, Nat.add_assoc]

/-- A whole number is written with 53 digits, if it is shorter, and then rounded. -/
theorem toModel_toFloat {w : UInt64} (hw : 0 < w.toNat) : w.toFloat.toModel =
    Float.Model.pack (roundWithAccuracy Format.binary64 .positive
      (w.toNat <<< (52 - w.toNat.log2)) (-(52 - w.toNat.log2 : ℕ)) .exact) := by
  have hdecrease : ((0 : ℤ) - Format.binary64.targetExponent (totalExponent w.toNat 0)).toNat =
      52 - w.toNat.log2 := by
    rw [targetExponent_eq (by omega)]
    omega
  show Float.Model.pack (UnpackedFloat.normalize Format.binary64 w.toNat 0 .positive) = _
  rw [UnpackedFloat.normalize, Int.compare_eq_gt.mpr (by exact_mod_cast hw)]
  simp only [Int.toNat_natCast, UnpackedFloat.round, decreaseExponent, hdecrease]
  rw [zero_sub]

/-- **A whole number becomes the nearest double.** -/
theorem exists_holds_toFloat {w : UInt64} (hw : 0 < w.toNat) :
    ∃ m e, Holds w.toFloat m e ∧ -52 ≤ e ∧ e ≤ 12 ∧ RoundsTo w.toNat (m * 2 ^ e) := by
  have hlog : w.toNat.log2 < 64 := (Nat.log2_lt hw.ne').mpr w.toNat_lt
  have hmodel := toModel_toFloat hw
  generalize hk : 52 - w.toNat.log2 = k at hmodel
  have hshift := log2_shiftLeft hw.ne' k
  have hlow : 2 ^ 52 ≤ w.toNat <<< k :=
    (Nat.le_log2 (Nat.shiftLeft_pos_iff.mpr hw).ne').mp (by omega)
  have hexact : Leaves ((w.toNat <<< k : ℕ) : ℚ) (w.toNat <<< k) .exact := .nothing rfl
  obtain ⟨m, e, hholds, he, he', hrounds⟩ :=
    exists_holds_of_leaves hlow (by omega) (by omega) hexact hmodel
  have hvalue : ((w.toNat <<< k : ℕ) : ℚ) * 2 ^ (-k : ℤ) = w.toNat := by
    rw [Nat.shiftLeft_eq, zpow_neg, zpow_natCast]
    push_cast
    field_simp
  exact ⟨m, e, hholds, by omega, by omega, hvalue ▸ hrounds⟩

/-- **The quotient of two significands** has 53 digits or 54. -/
theorem quotient_bounds (hm : 2 ^ 52 ≤ m) (hm' : m < 2 ^ 53) (hn : 2 ^ 52 ≤ n) (hn' : n < 2 ^ 53) :
    2 ^ 52 ≤ (m <<< 53) / n ∧ (m <<< 53) / n < 2 ^ 54 := by
  have hpos : 0 < n := by omega
  rw [Nat.le_div_iff_mul_le hpos, Nat.div_lt_iff_lt_mul hpos, Nat.shiftLeft_eq]
  constructor <;> omega

/-- The division of significands in the unit of the quotient. -/
theorem divCore_eq (hm : m.log2 = 52) (hn : n.log2 = 52) (hef : -1000 ≤ e - f) :
    divCore Format.binary64 m e n f =
      ((m <<< 53) / n, e - f - 53, accuracyOfFraction ((m <<< 53) % n) n) := by
  have htarget : Format.binary64.targetExponent (totalExponent m e - totalExponent n f) =
      e - f - 53 := by
    simp only [Format.targetExponent, totalExponent, Format.mantissaBits, Format.minExponent, hm,
      hn]
    norm_num
    omega
  have hshift : (e - f - (e - f - 53)).toNat = 53 := by omega
  simp only [divCore, htarget, min_eq_right (by omega : e - f - 53 ≤ e - f), hshift]

/-- Two significands and a quotient of units. -/
theorem shiftLeft_div_mul (m : ℕ) (hn : 0 < n) (e f : ℤ) :
    ((m <<< 53 : ℕ) : ℚ) / n * 2 ^ (e - f - 53) = (m * 2 ^ e) / (n * 2 ^ f) := by
  have hn : (n : ℚ) ≠ 0 := by exact_mod_cast hn.ne'
  have hunit : (2 : ℚ) ^ (e - f - 53) * 2 ^ 53 = 2 ^ e / 2 ^ f := by
    rw [zpow_sub₀ two_ne_zero, zpow_sub₀ two_ne_zero, div_mul_eq_mul_div]
    exact mul_div_cancel_right₀ _ (by positivity)
  rw [Nat.shiftLeft_eq, Nat.cast_mul, Nat.cast_pow, Nat.cast_ofNat, mul_div_mul_comm, ← hunit]
  ring

theorem toModel_div (a b : Float) : (a / b).toModel =
    Float.Model.pack (UnpackedFloat.div Format.binary64 a.toModel.unpack b.toModel.unpack) :=
  rfl

/-- **A quotient of doubles** is the double nearest to the quotient of what they hold. -/
theorem exists_holds_div (ha : Holds a m e) (hb : Holds b n f) (hef : -1000 ≤ e - f)
    (hef' : e - f ≤ 900) :
    ∃ q g, Holds (a / b) q g ∧ RoundsTo ((m * 2 ^ e) / (n * 2 ^ f)) (q * 2 ^ g) := by
  obtain ⟨hposa, hunpacka⟩ := ha.unpack_eq
  obtain ⟨hposb, hunpackb⟩ := hb.unpack_eq
  have hcore := divCore_eq ((Nat.log2_eq_iff hposa.ne').mpr ⟨ha.low, ha.high⟩)
    ((Nat.log2_eq_iff hposb.ne').mpr ⟨hb.low, hb.high⟩) hef
  obtain ⟨hlow, hhigh⟩ := quotient_bounds ha.low ha.high hb.low hb.high
  have hlog : ((m <<< 53) / n).log2 < 54 := (Nat.log2_lt (by omega)).mpr hhigh
  have hmodel : (a / b).toModel = Float.Model.pack (roundWithAccuracy Format.binary64 .positive
      ((m <<< 53) / n) (e - f - 53) (accuracyOfFraction ((m <<< 53) % n) n)) := by
    rw [toModel_div, hunpacka, hunpackb]
    simp only [UnpackedFloat.div, hcore]
    rfl
  have hleaves := leaves_div (m <<< 53) hposb
  rw [← shiftLeft_div_mul m hposb]
  obtain ⟨q, g, hholds, -, -, hrounds⟩ :=
    exists_holds_of_leaves hlow (by omega) (by omega) hleaves hmodel
  exact ⟨q, g, hholds, hrounds⟩

end DesignRecipe.Decimal

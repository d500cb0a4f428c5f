import Mathlib.Algebra.Order.Field.Power
import Mathlib.Algebra.Order.Field.Rat
import Mathlib.Algebra.Order.Round
import Mathlib.Data.Int.Log
import Mathlib.Data.Rat.Floor
import Mathlib.Tactic.FieldSimp
import Mathlib.Tactic.Linarith
import Mathlib.Tactic.NormNum
import Mathlib.Tactic.Positivity
import Mathlib.Tactic.Ring

/-!
# Rounding to binary floating point

The nearest number with a given count of binary digits, ties to the even one,
for exponents without bound. Rounding is monotone and keeps what can be
represented, which is what the order of computed quotients rests on. A number
is cut off at the point when it becomes an integer, and `fmod` is exact.
-/

namespace BfMultiplayer.FloatRounding

/-- The nearest integer, and of two the even one. -/
def roundEven (x : ℚ) : ℤ :=
  if x - ⌊x⌋ < 1 / 2 then ⌊x⌋
  else if 1 / 2 < x - ⌊x⌋ then ⌊x⌋ + 1
  else ⌊x⌋ + ⌊x⌋ % 2

/-- The distance of the numbers with `digits` binary digits at a positive number. -/
def unitAt (digits : ℕ) (x : ℚ) : ℚ := 2 ^ (Int.log 2 x + 1 - digits)

/-- A non-negative number rounded to `digits` binary digits. -/
def roundMagnitude (digits : ℕ) (x : ℚ) : ℚ := roundEven (x / unitAt digits x) * unitAt digits x

/-- A number rounded to `digits` binary digits. -/
def roundFloat (digits : ℕ) (x : ℚ) : ℚ :=
  if 0 ≤ x then roundMagnitude digits x else -roundMagnitude digits (-x)

/-- A `float`, of 24 digits. -/
def toFloat (x : ℚ) : ℚ := roundFloat 24 x

/-- A `double`, of 53 digits. -/
def toDouble (x : ℚ) : ℚ := roundFloat 53 x

/-- The integer part of a number, as a conversion to an integer takes it. -/
def truncate (x : ℚ) : ℤ := if 0 ≤ x then ⌊x⌋ else ⌈x⌉

/-- `fmod`, which is exact. -/
def fmod (x y : ℚ) : ℚ := x - y * truncate (x / y)

/-- An integer is its own nearest one. -/
theorem roundEven_intCast (n : ℤ) : roundEven n = n := by
  rw [roundEven, Int.floor_intCast, if_pos (by linarith)]

/-- The nearest integer is one of the two around a number. -/
theorem roundEven_bounds (x : ℚ) : ⌊x⌋ ≤ roundEven x ∧ roundEven x ≤ ⌊x⌋ + 1 := by
  unfold roundEven
  split_ifs <;> omega

/-- Rounding to integers keeps the order. -/
theorem roundEven_mono {x y : ℚ} (h : x ≤ y) : roundEven x ≤ roundEven y := by
  have hfloor := Int.floor_mono h
  rcases eq_or_lt_of_le hfloor with heq | hlt
  · have hfraction : x - ⌊y⌋ ≤ y - ⌊y⌋ := by linarith
    unfold roundEven
    rw [heq]
    split_ifs <;> first | omega | (exfalso; linarith)
  · have hx := (roundEven_bounds x).2
    have hy := (roundEven_bounds y).1
    omega

/-- The distance of the rounded numbers is positive. -/
theorem unitAt_pos (digits : ℕ) (x : ℚ) : 0 < unitAt digits x := by
  unfold unitAt
  positivity

/-- A power of two is a number of units below it. -/
theorem pow_div_unitAt {digits : ℕ} {x : ℚ} {n : ℤ} (h : Int.log 2 x + 1 ≤ n + digits) :
    (2 : ℚ) ^ n / unitAt digits x = ((2 ^ (n + digits - (Int.log 2 x + 1)).toNat : ℕ) : ℚ) := by
  have hexponent : n - (Int.log 2 x + 1 - digits) =
      ((n + digits - (Int.log 2 x + 1)).toNat : ℤ) := by omega
  rw [unitAt, ← zpow_sub₀ (by norm_num), hexponent, zpow_natCast]
  push_cast
  rfl

/-- A number below a power of two is rounded to at most that power. -/
theorem roundMagnitude_le_pow {digits : ℕ} {x : ℚ} {n : ℤ} (hx : x ≤ 2 ^ n)
    (h : Int.log 2 x + 1 ≤ n + digits) : roundMagnitude digits x ≤ 2 ^ n := by
  have hunit := unitAt_pos digits x
  have hquotient : x / unitAt digits x ≤
      ((2 ^ (n + digits - (Int.log 2 x + 1)).toNat : ℕ) : ℤ) := by
    rw [Int.cast_natCast, ← pow_div_unitAt h]
    exact div_le_div_of_nonneg_right hx hunit.le
  have hround := roundEven_mono hquotient
  rw [roundEven_intCast] at hround
  have hcast : (roundEven (x / unitAt digits x) : ℚ) ≤ 2 ^ n / unitAt digits x := by
    rw [pow_div_unitAt h]
    exact_mod_cast hround
  rw [roundMagnitude]
  exact (le_div_iff₀ hunit).mp hcast

/-- A number above a power of two is rounded to at least that power. -/
theorem pow_le_roundMagnitude {digits : ℕ} {x : ℚ} {n : ℤ} (hx : 2 ^ n ≤ x)
    (h : Int.log 2 x + 1 ≤ n + digits) : 2 ^ n ≤ roundMagnitude digits x := by
  have hunit := unitAt_pos digits x
  have hquotient : (((2 ^ (n + digits - (Int.log 2 x + 1)).toNat : ℕ) : ℤ) : ℚ) ≤
      x / unitAt digits x := by
    rw [Int.cast_natCast, ← pow_div_unitAt h]
    exact div_le_div_of_nonneg_right hx hunit.le
  have hround := roundEven_mono hquotient
  rw [roundEven_intCast] at hround
  have hcast : 2 ^ n / unitAt digits x ≤ (roundEven (x / unitAt digits x) : ℚ) := by
    rw [pow_div_unitAt h]
    exact_mod_cast hround
  rw [roundMagnitude]
  exact (div_le_iff₀ hunit).mp hcast

/-- Rounding of positive numbers keeps their order. -/
theorem roundMagnitude_mono {digits : ℕ} (hdigits : 0 < digits) {x y : ℚ} (hx : 0 < x)
    (h : x ≤ y) : roundMagnitude digits x ≤ roundMagnitude digits y := by
  have hlog := Int.log_mono_right (b := 2) hx h
  rcases eq_or_lt_of_le hlog with heq | hlt
  · have hunit : unitAt digits x = unitAt digits y := by rw [unitAt, unitAt, heq]
    have hpos := unitAt_pos digits y
    have hround := roundEven_mono (div_le_div_of_nonneg_right h hpos.le)
    rw [roundMagnitude, roundMagnitude, hunit]
    exact mul_le_mul_of_nonneg_right (by exact_mod_cast hround) hpos.le
  · have hbelow : x ≤ 2 ^ (Int.log 2 x + 1) :=
      (Int.lt_zpow_succ_log_self (by norm_num) x).le
    have habove : 2 ^ Int.log 2 y ≤ y := Int.zpow_log_le_self (by norm_num) (hx.trans_le h)
    calc roundMagnitude digits x
        ≤ 2 ^ (Int.log 2 x + 1) := roundMagnitude_le_pow hbelow (by omega)
      _ ≤ 2 ^ Int.log 2 y := zpow_le_zpow_right₀ (by norm_num) (by omega)
      _ ≤ roundMagnitude digits y := pow_le_roundMagnitude habove (by omega)

/-- A number with few enough digits is kept. -/
theorem roundMagnitude_of_digits {digits m : ℕ} (hm : m < 2 ^ digits) (hpos : 0 < m) (n : ℤ) :
    roundMagnitude digits (m * 2 ^ n) = m * 2 ^ n := by
  have hmq : (0 : ℚ) < m := by exact_mod_cast hpos
  have hx : (0 : ℚ) < m * 2 ^ n := by positivity
  have hlt : (m : ℚ) * 2 ^ n < 2 ^ (n + digits) := by
    rw [zpow_add₀ (by norm_num), mul_comm, zpow_natCast]
    exact mul_lt_mul_of_pos_left (by exact_mod_cast hm) (by positivity)
  have hlog : Int.log 2 ((m : ℚ) * 2 ^ n) < n + digits :=
    (Int.lt_zpow_iff_log_lt (by norm_num) hx).mp (by exact_mod_cast hlt)
  have hunit := unitAt_pos digits ((m : ℚ) * 2 ^ n)
  have hquotient : (m : ℚ) * 2 ^ n / unitAt digits (m * 2 ^ n) =
      ((m * 2 ^ (n + digits - (Int.log 2 ((m : ℚ) * 2 ^ n) + 1)).toNat : ℕ) : ℤ) := by
    rw [mul_div_assoc, pow_div_unitAt (by omega)]
    push_cast
    rfl
  rw [roundMagnitude, hquotient, roundEven_intCast, ← hquotient]
  exact div_mul_cancel₀ _ hunit.ne'

/-- Zero is kept. -/
theorem roundFloat_zero (digits : ℕ) : roundFloat digits 0 = 0 := by
  rw [roundFloat, if_pos le_rfl, roundMagnitude, zero_div]
  have hzero := roundEven_intCast 0
  rw [Int.cast_zero] at hzero
  rw [hzero, Int.cast_zero, zero_mul]

/-- A non-negative number with few enough digits is kept. -/
theorem roundFloat_of_digits {digits m : ℕ} (hm : m < 2 ^ digits) (n : ℤ) :
    roundFloat digits (m * 2 ^ n) = m * 2 ^ n := by
  rcases Nat.eq_zero_or_pos m with rfl | hpos
  · rw [Nat.cast_zero, zero_mul, roundFloat_zero]
  · rw [roundFloat, if_pos (by positivity), roundMagnitude_of_digits hm hpos]

/-- Rounding of positive numbers keeps their order. -/
theorem roundFloat_mono {digits : ℕ} (hdigits : 0 < digits) {x y : ℚ} (hx : 0 < x) (h : x ≤ y) :
    roundFloat digits x ≤ roundFloat digits y := by
  rw [roundFloat, if_pos hx.le, roundFloat, if_pos (hx.le.trans h)]
  exact roundMagnitude_mono hdigits hx h

/-- The numbers up to the power of two are kept. -/
theorem roundFloat_natCast {digits n : ℕ} (hdigits : 0 < digits) (h : n ≤ 2 ^ digits) :
    roundFloat digits n = n := by
  rcases eq_or_lt_of_le h with rfl | hlt
  · have hone := roundFloat_of_digits (m := 1) (Nat.one_lt_two_pow hdigits.ne') digits
    rw [Nat.cast_one, one_mul, zpow_natCast] at hone
    push_cast
    exact hone
  · have hsame := roundFloat_of_digits hlt 0
    rw [zpow_zero, mul_one] at hsame
    exact hsame

/-- A positive number stays positive. -/
theorem roundFloat_pos {digits : ℕ} (hdigits : 0 < digits) {x : ℚ} (hx : 0 < x) :
    0 < roundFloat digits x := by
  have hbelow : (2 : ℚ) ^ Int.log 2 x ≤ x := Int.zpow_log_le_self (by norm_num) hx
  rw [roundFloat, if_pos hx.le]
  calc (0 : ℚ) < 2 ^ Int.log 2 x := by positivity
    _ ≤ roundMagnitude digits x := pow_le_roundMagnitude hbelow (by omega)

/-- A number above an integer that is kept is rounded to at least the integer. -/
theorem natCast_le_roundFloat {digits n : ℕ} (hdigits : 0 < digits) (hn : n ≤ 2 ^ digits) {x : ℚ}
    (h : n ≤ x) : n ≤ roundFloat digits x := by
  rcases Nat.eq_zero_or_pos n with rfl | hpos
  · rw [Nat.cast_zero] at h ⊢
    rcases h.eq_or_lt with rfl | hx
    · exact (roundFloat_zero digits).ge
    · exact (roundFloat_pos hdigits hx).le
  · calc (n : ℚ) = roundFloat digits n := (roundFloat_natCast hdigits hn).symm
      _ ≤ roundFloat digits x := roundFloat_mono hdigits (by exact_mod_cast hpos) h

/-- A number that is not negative stays so. -/
theorem roundFloat_nonneg {digits : ℕ} (hdigits : 0 < digits) {x : ℚ} (hx : 0 ≤ x) :
    0 ≤ roundFloat digits x := by
  have hzero : ((0 : ℕ) : ℚ) ≤ x := by rwa [Nat.cast_zero]
  have hround := natCast_le_roundFloat hdigits (Nat.zero_le _) hzero
  rwa [Nat.cast_zero] at hround

/-- The nearest integer is at most a half away. -/
theorem roundEven_error (x : ℚ) : |(roundEven x : ℚ) - x| ≤ 1 / 2 := by
  have hfloor := Int.floor_le x
  have habove := Int.lt_floor_add_one x
  unfold roundEven
  rw [abs_le]
  split_ifs with hlow hhigh
  · constructor <;> linarith
  · push_cast
    constructor <;> linarith
  · rcases Int.emod_two_eq_zero_or_one ⌊x⌋ with heven | hodd
    · rw [heven]
      push_cast
      constructor <;> linarith
    · rw [hodd]
      push_cast
      constructor <;> linarith

/-- The distance of the rounded numbers, relative to the number. -/
theorem unitAt_le {digits : ℕ} {x : ℚ} (hx : 0 < x) : unitAt digits x ≤ 2 * x / 2 ^ digits := by
  have hbelow : (2 : ℚ) ^ Int.log 2 x ≤ x := Int.zpow_log_le_self (by norm_num) hx
  rw [unitAt, zpow_sub₀ (by norm_num), zpow_add_one₀ (by norm_num), zpow_natCast, mul_comm]
  gcongr

/-- Rounding has a relative error of at most half a unit in the last digit. -/
theorem roundFloat_error {digits : ℕ} {x : ℚ} (hx : 0 ≤ x) :
    |roundFloat digits x - x| ≤ x / 2 ^ digits := by
  rcases hx.eq_or_lt with rfl | hpos
  · rw [roundFloat_zero, sub_zero, abs_zero, zero_div]
  · have hunit := unitAt_pos digits x
    have hdifference : roundFloat digits x - x =
        (roundEven (x / unitAt digits x) - x / unitAt digits x) * unitAt digits x := by
      rw [roundFloat, if_pos hx, roundMagnitude, sub_mul, div_mul_cancel₀ _ hunit.ne']
    calc |roundFloat digits x - x|
        = |(roundEven (x / unitAt digits x) : ℚ) - x / unitAt digits x| * unitAt digits x := by
          rw [hdifference, abs_mul, abs_of_pos hunit]
      _ ≤ 1 / 2 * unitAt digits x := by
          gcongr
          exact roundEven_error _
      _ ≤ 1 / 2 * (2 * x / 2 ^ digits) := by
          gcongr
          exact unitAt_le hpos
      _ = x / 2 ^ digits := by ring

/-- A product with a rounded factor, rounded again. -/
theorem roundFloat_mul_error {digits : ℕ} {n c : ℚ} (hn : 0 ≤ n) (hc : 0 ≤ c) :
    |roundFloat digits (n * roundFloat digits c) - n * c| ≤ 3 * (n * c) / 2 ^ digits := by
  have hone : (1 : ℚ) ≤ 2 ^ digits := one_le_pow₀ (by norm_num)
  have hfactor : |roundFloat digits c - c| ≤ c / 2 ^ digits := roundFloat_error hc
  have hmore : roundFloat digits c ≤ 2 * c := by
    have habove := (abs_le.mp hfactor).2
    have hsmall : c / 2 ^ digits ≤ c := div_le_self hc hone
    linarith
  have hless : 0 ≤ roundFloat digits c := by
    have hbelow := (abs_le.mp hfactor).1
    have hsmall : c / 2 ^ digits ≤ c := div_le_self hc hone
    linarith
  have hproduct : |n * roundFloat digits c - n * c| ≤ n * c / 2 ^ digits := by
    rw [← mul_sub, abs_mul, abs_of_nonneg hn, mul_div_assoc]
    gcongr
  have hround : |roundFloat digits (n * roundFloat digits c) - n * roundFloat digits c| ≤
      2 * (n * c) / 2 ^ digits := by
    have htwice : n * roundFloat digits c ≤ 2 * (n * c) := by
      calc n * roundFloat digits c ≤ n * (2 * c) := by gcongr
        _ = 2 * (n * c) := by ring
    refine (roundFloat_error (mul_nonneg hn hless)).trans ?_
    exact div_le_div_of_nonneg_right htwice (by positivity)
  calc |roundFloat digits (n * roundFloat digits c) - n * c|
      ≤ |roundFloat digits (n * roundFloat digits c) - n * roundFloat digits c| +
          |n * roundFloat digits c - n * c| := abs_sub_le _ _ _
    _ ≤ 2 * (n * c) / 2 ^ digits + n * c / 2 ^ digits := add_le_add hround hproduct
    _ = 3 * (n * c) / 2 ^ digits := by ring

/-- Rounding does not depend on the sign. -/
theorem roundFloat_neg (digits : ℕ) (x : ℚ) : roundFloat digits (-x) = -roundFloat digits x := by
  rcases lt_trichotomy x 0 with hneg | rfl | hpos
  · rw [roundFloat, if_pos (by linarith), roundFloat, if_neg (by linarith), neg_neg]
  · rw [neg_zero, roundFloat_zero, neg_zero]
  · rw [roundFloat, if_neg (by linarith), neg_neg, roundFloat, if_pos hpos.le]

/-- The same for a factor of any sign. -/
theorem roundFloat_mul_error_abs (digits : ℕ) {n : ℚ} (hn : 0 ≤ n) (c : ℚ) :
    |roundFloat digits (n * roundFloat digits c) - n * c| ≤ 3 * (n * |c|) / 2 ^ digits := by
  rcases le_total 0 c with hpos | hneg
  · rw [abs_of_nonneg hpos]
    exact roundFloat_mul_error hn hpos
  · have herror : |roundFloat digits (n * roundFloat digits (-c)) - n * -c| ≤
        3 * (n * -c) / 2 ^ digits := roundFloat_mul_error hn (neg_nonneg.mpr hneg)
    rw [roundFloat_neg, mul_neg, roundFloat_neg, mul_neg, ← neg_sub', abs_neg, ← mul_neg] at herror
    rw [abs_of_nonpos hneg]
    exact herror

/-- A small integer is a `float`. -/
theorem toFloat_int {n : ℤ} (hpos : 0 ≤ n) (h : n ≤ 2 ^ 24) : toFloat n = n := by
  obtain ⟨m, rfl⟩ := Int.eq_ofNat_of_zero_le hpos
  rw [Int.cast_natCast]
  exact roundFloat_natCast (by norm_num) (by omega)

/-- One less than a `float` holds, over one more. -/
theorem toFloat_lt_one {x : ℚ} (hpos : 0 < x) (h : x ≤ 1 - 1 / 2 ^ 24) : toFloat x < 1 := by
  have hlargest : toFloat ((2 ^ 24 - 1 : ℕ) * 2 ^ (-24 : ℤ)) = (2 ^ 24 - 1 : ℕ) * 2 ^ (-24 : ℤ) :=
    roundFloat_of_digits (by norm_num) (-24)
  have hvalue : ((2 ^ 24 - 1 : ℕ) : ℚ) * 2 ^ (-24 : ℤ) = 1 - 1 / 2 ^ 24 := by norm_num
  rw [hvalue] at hlargest
  calc toFloat x ≤ toFloat (1 - 1 / 2 ^ 24) := roundFloat_mono (by norm_num) hpos h
    _ = 1 - 1 / 2 ^ 24 := hlargest
    _ < 1 := by norm_num

/-- The quotient of two positive numbers, the first of which is not larger, is at most one. -/
theorem toFloat_quotient {x y : ℚ} (hx : 0 < x) (h : x ≤ y) :
    0 < toFloat x / toFloat y ∧ toFloat (toFloat x / toFloat y) ≤ 1 := by
  have hdividend : 0 < toFloat x := roundFloat_pos (by norm_num) hx
  have hdivisor : 0 < toFloat y := roundFloat_pos (by norm_num) (hx.trans_le h)
  have horder : toFloat x ≤ toFloat y := roundFloat_mono (by norm_num) hx h
  have hone : toFloat 1 = 1 := by
    have hint := toFloat_int (n := 1) (by norm_num) (by norm_num)
    rwa [Int.cast_one] at hint
  refine ⟨div_pos hdividend hdivisor, ?_⟩
  calc toFloat (toFloat x / toFloat y)
      ≤ toFloat 1 := roundFloat_mono (by norm_num) (div_pos hdividend hdivisor)
        ((div_le_one hdivisor).mpr horder)
    _ = 1 := hone

/-- The integer part of a number that is not negative. -/
theorem truncate_eq {x : ℚ} {n : ℕ} (hlow : n ≤ x) (hhigh : x < n + 1) : truncate x = n := by
  have hn : (0 : ℚ) ≤ n := Nat.cast_nonneg n
  rw [truncate, if_pos (hn.trans hlow), Int.floor_eq_iff]
  push_cast
  exact ⟨hlow, hhigh⟩

/-- An integer is its own integer part. -/
theorem truncate_int (n : ℤ) : truncate n = n := by
  rw [truncate, Int.floor_intCast, Int.ceil_intCast, ite_self]

/-- Numbers below one lose all of their value. -/
theorem truncate_eq_zero_iff (x : ℚ) : truncate x = 0 ↔ |x| < 1 := by
  rw [abs_lt]
  unfold truncate
  split
  · rename_i hpos
    rw [Int.floor_eq_zero_iff, Set.mem_Ico]
    constructor
    · rintro ⟨-, hone⟩
      exact ⟨by linarith, hone⟩
    · rintro ⟨-, hone⟩
      exact ⟨hpos, hone⟩
  · rename_i hneg
    rw [Int.ceil_eq_zero_iff, Set.mem_Ioc]
    constructor
    · rintro ⟨hone, -⟩
      exact ⟨hone, by linarith⟩
    · rintro ⟨hone, -⟩
      exact ⟨hone, by linarith⟩

/-- `fmod` in a known cycle. -/
theorem fmod_eq {x y : ℚ} {k : ℕ} (hy : 0 < y) (hlow : y * k ≤ x) (hhigh : x < y * (k + 1)) :
    fmod x y = x - y * k := by
  have htruncate : truncate (x / y) = k := by
    refine truncate_eq ?_ ?_
    · rw [le_div_iff₀ hy]
      linarith
    · rw [div_lt_iff₀ hy]
      linarith
  rw [fmod, htruncate, Int.cast_natCast]

/-- `fmod` of naturals is the remainder. -/
theorem fmod_natCast (n : ℕ) {m : ℕ} (hm : 0 < m) : fmod n m = (n % m : ℕ) := by
  have hmq : (0 : ℚ) < m := by exact_mod_cast hm
  have hdivision : (n : ℚ) = m * (n / m : ℕ) + (n % m : ℕ) := by
    exact_mod_cast (Nat.div_add_mod n m).symm
  have hrest : ((n % m : ℕ) : ℚ) < m := by exact_mod_cast Nat.mod_lt n hm
  have hpos : (0 : ℚ) ≤ (n % m : ℕ) := Nat.cast_nonneg _
  rw [fmod_eq (k := n / m) hmq (by linarith) (by linarith)]
  linarith

/-- `fmod` leaves less than the divisor. -/
theorem fmod_lt (x : ℚ) {y : ℚ} (hy : 0 < y) : |fmod x y| < y := by
  have hquotient : |x / y - truncate (x / y)| < 1 := by
    unfold truncate
    split
    · have hfloor := Int.floor_le (x / y)
      have habove := Int.lt_floor_add_one (x / y)
      rw [abs_lt]
      constructor <;> linarith
    · have hceil := Int.le_ceil (x / y)
      have hbelow := Int.ceil_lt_add_one (x / y)
      rw [abs_lt]
      constructor <;> linarith
  have hfmod : fmod x y = (x / y - truncate (x / y)) * y := by
    rw [fmod, sub_mul, div_mul_cancel₀ _ hy.ne', mul_comm y]
  rw [hfmod, abs_mul, abs_of_pos hy]
  exact mul_lt_of_lt_one_left hy hquotient

end BfMultiplayer.FloatRounding

import Mathlib.Data.Fin.Basic
import Mathlib.Tactic.Common
import Mathlib.Algebra.Order.Ring.Nat

/-!
# Bijective numerals

A digit of base `b` counts `1` to `b` instead of `0` to `b - 1`, so no numeral has
a second spelling: the digit strings and the natural numbers correspond one to
one, and the empty string is zero. Digits are stored as `Fin b`, one less than
what they count, least digit first.
-/

namespace BfMultiplayer.BijectiveNumerals

variable {b : ℕ}

/-- The number a digit string stands for. -/
def value : List (Fin b) → ℕ
  | [] => 0
  | d :: ds => d.val + 1 + b * value ds

/-- The digit string of a number. -/
def digits (b : ℕ) [NeZero b] (n : ℕ) : List (Fin b) :=
  if n = 0 then [] else Fin.ofNat b (n - 1) :: digits b ((n - 1) / b)
termination_by n
decreasing_by
  have hdiv : (n - 1) / b ≤ n - 1 := Nat.div_le_self (n - 1) b
  omega

/-- Zero has no digits. -/
@[simp] theorem digits_zero [NeZero b] : digits b 0 = [] := by
  rw [digits, if_pos rfl]

/-- The least digit of a positive number and the digits behind it. -/
theorem digits_succ [NeZero b] (n : ℕ) :
    digits b (n + 1) = Fin.ofNat b n :: digits b (n / b) := by
  rw [digits, if_neg n.succ_ne_zero, Nat.add_sub_cancel]

/-- A number is the value of its digits. -/
@[simp] theorem value_digits [NeZero b] (n : ℕ) : value (digits b n) = n := by
  induction n using Nat.strongRecOn with
  | ind n ih =>
    cases n with
    | zero => rw [digits_zero, value]
    | succ n =>
      have hlt : n / b < n + 1 := Nat.lt_succ_of_le (Nat.div_le_self n b)
      rw [digits_succ, value, ih _ hlt, Fin.val_ofNat]
      have hsplit := Nat.mod_add_div n b
      omega

/-- The digits of a value are the string it was read from. -/
@[simp] theorem digits_value [NeZero b] (ds : List (Fin b)) : digits b (value ds) = ds := by
  induction ds with
  | nil => rw [value, digits_zero]
  | cons d ds ih =>
    have hpos : 0 < b := Nat.pos_of_ne_zero (NeZero.ne b)
    have hshape : value (d :: ds) = (d.val + b * value ds) + 1 := by rw [value]; omega
    have hmod : (d.val + b * value ds) % b = d.val := by
      rw [Nat.add_mul_mod_self_left, Nat.mod_eq_of_lt d.isLt]
    have hdiv : (d.val + b * value ds) / b = value ds := by
      rw [Nat.add_mul_div_left _ _ hpos, Nat.div_eq_of_lt d.isLt, Nat.zero_add]
    rw [hshape, digits_succ, hdiv, ih]
    congr 1
    exact Fin.ext (by rw [Fin.val_ofNat, hmod])

/-- Two digit strings of one value are the same string. -/
theorem value_injective [NeZero b] : Function.Injective (value (b := b)) := by
  intro ds es h
  rw [← digits_value ds, h, digits_value]

end BfMultiplayer.BijectiveNumerals

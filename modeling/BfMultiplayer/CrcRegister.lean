import Mathlib

/-!
# Cyclic redundancy registers

A register of `w` bits that shifts right and adds a polynomial when a one falls
out. The step is linear, so the bits of a register that do not fall out only move
down, and a table of the results for the bits that do replaces several steps. Read
as a polynomial over the field of two elements, highest power in the lowest bit,
a step multiplies by `X` modulo the generator, so feeding a message computes a
remainder. A polynomial with its constant term set makes every step invertible;
two messages that differ within the width of the register then never meet.
-/

namespace BfMultiplayer.CrcRegister

variable {w : ℕ}

/-- One shift of the register. -/
def shiftBit (p c : BitVec w) : BitVec w :=
  if c.getLsbD 0 then (c >>> 1) ^^^ p else c >>> 1

/-- Several shifts of the register. -/
def shiftBits (p : BitVec w) : ℕ → BitVec w → BitVec w
  | 0, c => c
  | n + 1, c => shiftBits p n (shiftBit p c)

/-- The register after the bytes of a message, each added to its low end. -/
def feed (p : BitVec w) (c : BitVec w) (message : List (BitVec 8)) : BitVec w :=
  message.foldl (fun c byte => shiftBits p 8 (c ^^^ byte.setWidth w)) c

/-! ### The register as a linear map -/

/-- A shift is linear. -/
theorem shiftBit_xor (p a b : BitVec w) : shiftBit p (a ^^^ b) = shiftBit p a ^^^ shiftBit p b := by
  unfold shiftBit
  rw [BitVec.getLsbD_xor, BitVec.ushiftRight_xor_distrib]
  cases ha : a.getLsbD 0 <;> cases hb : b.getLsbD 0
  · rfl
  · exact BitVec.xor_assoc _ _ _
  · show (a >>> 1 ^^^ b >>> 1) ^^^ p = (a >>> 1 ^^^ p) ^^^ b >>> 1
    rw [BitVec.xor_assoc, BitVec.xor_assoc, BitVec.xor_comm p]
  · -- the two copies of the polynomial cancel
    show a >>> 1 ^^^ b >>> 1 = (a >>> 1 ^^^ p) ^^^ (b >>> 1 ^^^ p)
    rw [BitVec.xor_comm (b >>> 1) p, BitVec.xor_assoc, ← BitVec.xor_assoc p p, BitVec.xor_self,
      BitVec.zero_xor]

/-- Several shifts are linear. -/
theorem shiftBits_xor (p : BitVec w) (n : ℕ) (a b : BitVec w) :
    shiftBits p n (a ^^^ b) = shiftBits p n a ^^^ shiftBits p n b := by
  induction n generalizing a b with
  | zero => rfl
  | succ n ih => rw [shiftBits, shiftBit_xor, ih]; rfl

/-- Shifts compose. -/
theorem shiftBits_add (p : BitVec w) (m n : ℕ) (c : BitVec w) :
    shiftBits p (m + n) c = shiftBits p n (shiftBits p m c) := by
  induction m generalizing c with
  | zero => rw [Nat.zero_add]; rfl
  | succ m ih => rw [Nat.succ_add, shiftBits, ih]; rfl

/-- A register whose low bits are clear only moves down. -/
theorem shiftBits_of_low_clear (p : BitVec w) (n : ℕ) (c : BitVec w)
    (h : ∀ i < n, c.getLsbD i = false) : shiftBits p n c = c >>> n := by
  induction n generalizing c with
  | zero => rw [BitVec.ushiftRight_zero]; rfl
  | succ n ih =>
    have hstep : shiftBit p c = c >>> 1 := by
      unfold shiftBit
      rw [h 0 n.succ_pos]
      rfl
    rw [shiftBits, hstep, ih, ← BitVec.shiftRight_add, Nat.add_comm]
    intro i hi
    rw [BitVec.getLsbD_ushiftRight]
    exact h (1 + i) (by omega)

/-- The low `k` bits of a register. -/
def lowBits (k : ℕ) (c : BitVec w) : BitVec w := c &&& BitVec.ofNat w (2 ^ k - 1)

/-- The bits of the low part. -/
theorem getLsbD_lowBits (k : ℕ) (c : BitVec w) (i : ℕ) :
    (lowBits k c).getLsbD i = (c.getLsbD i && decide (i < k)) := by
  unfold lowBits
  rw [BitVec.getLsbD_and, BitVec.getLsbD_ofNat, Nat.testBit_two_pow_sub_one]
  by_cases hi : i < w
  · rw [decide_eq_true hi, Bool.true_and]
  · rw [BitVec.getLsbD_of_ge c i (by omega), Bool.false_and, Bool.false_and]

/-- A table step: the low bits are looked up, the others move down. -/
theorem shiftBits_eq_table (p : BitVec w) (k : ℕ) (c : BitVec w) :
    shiftBits p k c = shiftBits p k (lowBits k c) ^^^ (c >>> k) := by
  have hhigh : ∀ i < k, (c ^^^ lowBits k c).getLsbD i = false := by
    intro i hi
    rw [BitVec.getLsbD_xor, getLsbD_lowBits, decide_eq_true hi, Bool.and_true, Bool.xor_self]
  have hshift : (c ^^^ lowBits k c) >>> k = c >>> k := by
    apply BitVec.eq_of_getLsbD_eq
    intro i _
    rw [BitVec.getLsbD_ushiftRight, BitVec.getLsbD_ushiftRight, BitVec.getLsbD_xor,
      getLsbD_lowBits, decide_eq_false (by omega), Bool.and_false, Bool.xor_false]
  have hsplit : c = lowBits k c ^^^ (c ^^^ lowBits k c) := by
    rw [BitVec.xor_comm c, ← BitVec.xor_assoc, BitVec.xor_self, BitVec.zero_xor]
  calc shiftBits p k c = shiftBits p k (lowBits k c ^^^ (c ^^^ lowBits k c)) := by rw [← hsplit]
    _ = shiftBits p k (lowBits k c) ^^^ shiftBits p k (c ^^^ lowBits k c) := shiftBits_xor p k _ _
    _ = shiftBits p k (lowBits k c) ^^^ (c >>> k) := by
        rw [shiftBits_of_low_clear p k _ hhigh, hshift]

/-! ### Invertible steps -/

/-- A polynomial with its constant term, which is the top bit, makes a shift injective. -/
theorem shiftBit_injective {p : BitVec w} (hp : p.getMsbD 0 = true) :
    Function.Injective (shiftBit p) := by
  have hzero : ∀ c : BitVec w, shiftBit p c = 0#w → c = 0#w := by
    intro c h
    have htop : (shiftBit p c).getMsbD 0 = c.getLsbD 0 := by
      unfold shiftBit
      split
      · rename_i hc
        rw [BitVec.getMsbD_xor, BitVec.getMsbD_ushiftRight, hp, hc]
        simp
      · rename_i hc
        rw [BitVec.getMsbD_ushiftRight]
        simp [Bool.not_eq_true _ ▸ hc]
    have hlow : c.getLsbD 0 = false := by rw [← htop, h, BitVec.getMsbD_zero]
    apply BitVec.eq_of_getLsbD_eq
    intro i hi
    rw [BitVec.getLsbD_zero]
    cases i with
    | zero => exact hlow
    | succ i =>
      have hbit := congrArg (fun x => BitVec.getLsbD x i) h
      unfold shiftBit at hbit
      rw [hlow] at hbit
      simpa [BitVec.getLsbD_ushiftRight, Nat.add_comm] using hbit
  intro a b h
  have hdiff : shiftBit p (a ^^^ b) = 0#w := by rw [shiftBit_xor, h, BitVec.xor_self]
  exact BitVec.xor_eq_zero_iff.mp (hzero _ hdiff)

/-- Several shifts are injective then, too. -/
theorem shiftBits_injective {p : BitVec w} (hp : p.getMsbD 0 = true) (n : ℕ) :
    Function.Injective (shiftBits p n) := by
  induction n with
  | zero => exact Function.injective_id
  | succ n ih => exact ih.comp (shiftBit_injective hp)

/-- Feeding one message after another. -/
theorem feed_append (p c : BitVec w) (a b : List (BitVec 8)) :
    feed p c (a ++ b) = feed p (feed p c a) b := List.foldl_append

/-- Feeding a message is injective in the register before it. -/
theorem feed_injective {p : BitVec w} (hp : p.getMsbD 0 = true) (message : List (BitVec 8)) :
    Function.Injective fun c => feed p c message := by
  induction message with
  | nil => exact Function.injective_id
  | cons byte message ih =>
    intro a b h
    exact (BitVec.xor_left_inj _).mp (shiftBits_injective hp 8 (ih h))

/-- The bytes of a message as one number, first byte lowest. -/
def littleEndian (w : ℕ) : List (BitVec 8) → BitVec w
  | [] => 0#w
  | byte :: bytes => byte.setWidth w ^^^ (littleEndian w bytes <<< 8)

/-- The number has no bit above its bytes. -/
theorem getLsbD_littleEndian_of_ge (bytes : List (BitVec 8)) (i : ℕ) (h : 8 * bytes.length ≤ i) :
    (littleEndian w bytes).getLsbD i = false := by
  induction bytes generalizing i with
  | nil => rw [littleEndian, BitVec.getLsbD_zero]
  | cons byte bytes ih =>
    rw [List.length_cons] at h
    rw [littleEndian, BitVec.getLsbD_xor, BitVec.getLsbD_setWidth, BitVec.getLsbD_shiftLeft,
      BitVec.getLsbD_of_ge byte i (by omega), ih (i - 8) (by omega)]
    simp

/-- A register that holds the whole message takes it in one addition. -/
theorem feed_eq_shiftBits (p c : BitVec w) (bytes : List (BitVec 8)) (h : 8 * bytes.length ≤ w) :
    feed p c bytes = shiftBits p (8 * bytes.length) (c ^^^ littleEndian w bytes) := by
  induction bytes generalizing c with
  | nil => rw [littleEndian, BitVec.xor_zero]; rfl
  | cons byte bytes ih =>
    rw [List.length_cons] at h
    have hclear : ∀ i < 8, (littleEndian w bytes <<< 8).getLsbD i = false := by
      intro i hi
      rw [BitVec.getLsbD_shiftLeft]
      simp [hi]
    have hback : (littleEndian w bytes <<< 8) >>> 8 = littleEndian w bytes := by
      apply BitVec.eq_of_getLsbD_eq
      intro i hi
      rw [BitVec.getLsbD_ushiftRight, BitVec.getLsbD_shiftLeft]
      by_cases hin : 8 + i < w
      · simp [hin]
      · rw [getLsbD_littleEndian_of_ge bytes i (by omega)]
        simp [hin]
    have hfirst : shiftBits p 8 (c ^^^ littleEndian w (byte :: bytes)) =
        shiftBits p 8 (c ^^^ byte.setWidth w) ^^^ littleEndian w bytes := by
      rw [littleEndian, ← BitVec.xor_assoc, shiftBits_xor, shiftBits_of_low_clear p 8 _ hclear, hback]
    rw [List.length_cons, Nat.mul_add, Nat.add_comm, shiftBits_add, hfirst, ← ih _ (by omega)]
    rfl

/-- Two messages of one length that the register holds are different numbers. -/
theorem littleEndian_injective : ∀ {xs ys : List (BitVec 8)}, xs.length = ys.length →
    8 * xs.length ≤ w → littleEndian w xs = littleEndian w ys → xs = ys
  | [], [], _, _, _ => rfl
  | x :: xs, y :: ys, hlen, hfit, h => by
    rw [List.length_cons] at hfit
    have hbit : ∀ i, (littleEndian w (x :: xs)).getLsbD i = (littleEndian w (y :: ys)).getLsbD i :=
      fun i => by rw [h]
    have hbyte : x = y := by
      apply BitVec.eq_of_getLsbD_eq
      intro i hi
      have hi' := hbit i
      simp only [littleEndian, BitVec.getLsbD_xor, BitVec.getLsbD_setWidth,
        BitVec.getLsbD_shiftLeft] at hi'
      simpa [hi, show i < w by omega] using hi'
    have hrest : littleEndian w xs = littleEndian w ys := by
      apply BitVec.eq_of_getLsbD_eq
      intro i hi
      have hlens : xs.length = ys.length := Nat.succ.inj hlen
      by_cases hin : 8 + i < w
      · have hi' := hbit (8 + i)
        simp only [littleEndian, BitVec.getLsbD_xor, BitVec.getLsbD_setWidth,
          BitVec.getLsbD_shiftLeft, BitVec.getLsbD_of_ge x (8 + i) (by omega),
          BitVec.getLsbD_of_ge y (8 + i) (by omega)] at hi'
        simpa [hin] using hi'
      · rw [getLsbD_littleEndian_of_ge xs i (by omega), getLsbD_littleEndian_of_ge ys i (by omega)]
    rw [hbyte, littleEndian_injective (Nat.succ.inj hlen) (by omega) hrest]

/-- Two messages that differ only within the width of the register leave different
registers. -/
theorem eq_of_feed_eq {p c : BitVec w} (hp : p.getMsbD 0 = true) {a b xs ys : List (BitVec 8)}
    (hlen : xs.length = ys.length) (hfit : 8 * xs.length ≤ w)
    (h : feed p c (a ++ xs ++ b) = feed p c (a ++ ys ++ b)) : xs = ys := by
  rw [feed_append, feed_append, feed_append, feed_append] at h
  have hmid := feed_injective hp b h
  rw [feed_eq_shiftBits p _ xs hfit, feed_eq_shiftBits p _ ys (hlen ▸ hfit), ← hlen] at hmid
  exact littleEndian_injective hlen hfit
    ((BitVec.xor_right_inj _).mp (shiftBits_injective hp _ hmid))

/-! ### The register as a remainder -/

open Polynomial

/-- A bit as an element of the field of two elements. -/
def bit (b : Bool) : ZMod 2 := if b then 1 else 0

/-- Exclusive or is the sum of the field. -/
theorem bit_xor (a b : Bool) : bit (a ^^ b) = bit a + bit b := by
  cases a <;> cases b <;> decide

/-- The polynomial of a register: the top bit is the constant term. -/
noncomputable def toPoly (c : BitVec w) : (ZMod 2)[X] := ofFn w fun i => bit (c.getMsbD i)

/-- The polynomial that a register computes modulo. -/
noncomputable def generator (p : BitVec w) : (ZMod 2)[X] := X ^ w + toPoly p

/-- The coefficients of a register. -/
theorem coeff_toPoly (c : BitVec w) (n : ℕ) : (toPoly c).coeff n = bit (c.getMsbD n) := by
  unfold toPoly
  by_cases hn : n < w
  · rw [ofFn_coeff_eq_val_of_lt _ hn]
  · rw [ofFn_coeff_eq_zero_of_ge _ (by omega), BitVec.getMsbD_of_ge c n (by omega)]
    rfl

/-- A register has no term of its width. -/
theorem degree_toPoly_lt (c : BitVec w) : (toPoly c).degree < w := ofFn_degree_lt _

/-- The generator is monic of the width of the register. -/
theorem generator_monic (p : BitVec w) : (generator p).Monic ∧ (generator p).degree = w := by
  have hlt : (toPoly p).degree < (X ^ w : (ZMod 2)[X]).degree := by
    rw [degree_X_pow]
    exact degree_toPoly_lt p
  refine ⟨monic_X_pow_add (degree_toPoly_lt p), ?_⟩
  unfold generator
  rw [degree_add_eq_left_of_degree_lt hlt, degree_X_pow]

/-- Exclusive or adds the polynomials. -/
theorem toPoly_xor (a b : BitVec w) : toPoly (a ^^^ b) = toPoly a + toPoly b := by
  ext n
  rw [coeff_add, coeff_toPoly, coeff_toPoly, coeff_toPoly, BitVec.getMsbD_xor, bit_xor]

/-- A register is determined by its polynomial. -/
theorem toPoly_injective {a b : BitVec w} (h : toPoly a = toPoly b) : a = b := by
  have hbit : ∀ x y : Bool, bit x = bit y → x = y := by decide
  apply BitVec.eq_of_getMsbD_eq
  intro i _
  apply hbit
  rw [← coeff_toPoly, ← coeff_toPoly, h]

/-- Moving down multiplies by `X`, but for the bit that falls out. -/
theorem toPoly_ushiftRight (c : BitVec w) :
    toPoly (c >>> 1) + C (bit (c.getLsbD 0)) * X ^ w = X * toPoly c := by
  ext n
  rw [coeff_add, coeff_C_mul, coeff_X_pow, coeff_toPoly, BitVec.getMsbD_ushiftRight]
  cases n with
  | zero =>
    rw [coeff_X_mul_zero]
    by_cases hw : w = 0
    · subst hw
      simp [bit]
    · simp [bit, Ne.symm hw]
  | succ n =>
    rw [coeff_X_mul, coeff_toPoly]
    by_cases htop : n + 1 = w
    · -- the term of the width is what fell out
      have hlow : c.getMsbD n = c.getLsbD 0 := by
        rw [BitVec.getMsbD_eq_getLsbD, decide_eq_true (by omega), Bool.true_and]
        congr 1
        omega
      simp [htop, hlow, bit]
    · by_cases hn : n + 1 < w
      · simp [htop, hn]
      · rw [BitVec.getMsbD_of_ge c n (by omega)]
        simp [htop, hn, bit]

/-- One shift multiplies by `X` and takes the generator off at most once. -/
theorem toPoly_shiftBit (p c : BitVec w) :
    toPoly (shiftBit p c) = X * toPoly c + C (bit (c.getLsbD 0)) * generator p := by
  rw [← toPoly_ushiftRight, generator, mul_add]
  have hcancel : C (bit (c.getLsbD 0)) * X ^ w + C (bit (c.getLsbD 0)) * X ^ w =
      (0 : (ZMod 2)[X]) := CharTwo.add_self_eq_zero _
  have hstep : toPoly (shiftBit p c) = toPoly (c >>> 1) + C (bit (c.getLsbD 0)) * toPoly p := by
    unfold shiftBit
    cases c.getLsbD 0
    · simp [bit]
    · simp [bit, toPoly_xor]
  rw [hstep]
  linear_combination -hcancel

/-- Several shifts multiply by a power of `X`, up to a multiple of the generator. -/
theorem dvd_toPoly_shiftBits (p : BitVec w) (n : ℕ) (c : BitVec w) :
    generator p ∣ toPoly (shiftBits p n c) - X ^ n * toPoly c := by
  induction n generalizing c with
  | zero =>
    rw [pow_zero, one_mul]
    exact ⟨0, by rw [mul_zero]; exact sub_self _⟩
  | succ n ih =>
    obtain ⟨q, hq⟩ := ih (shiftBit p c)
    refine ⟨q + X ^ n * C (bit (c.getLsbD 0)), ?_⟩
    rw [toPoly_shiftBit] at hq
    rw [shiftBits]
    linear_combination hq

/-- The polynomial of a message: the lowest bit of the first byte has the highest power. -/
noncomputable def messagePoly : List (BitVec 8) → (ZMod 2)[X]
  | [] => 0
  | byte :: bytes => X ^ (8 * bytes.length) * toPoly byte + messagePoly bytes

/-- A byte at the low end of a register has the powers from the top. -/
theorem toPoly_setWidth (hw : 8 ≤ w) (byte : BitVec 8) :
    toPoly (byte.setWidth w) = X ^ (w - 8) * toPoly byte := by
  ext n
  rw [coeff_X_pow_mul', coeff_toPoly, coeff_toPoly, BitVec.getMsbD_setWidth]
  split
  · rename_i hn
    congr 1
    rw [decide_eq_true (by omega), Bool.true_and]
    congr 1
    omega
  · rename_i hn
    rw [decide_eq_false (by omega), Bool.false_and]
    rfl

/-- Feeding a message leaves the remainder of the message and of the register
before it, each moved up. -/
theorem toPoly_feed (hw : 8 ≤ w) (p c : BitVec w) (message : List (BitVec 8)) :
    toPoly (feed p c message) =
      (X ^ w * messagePoly message + X ^ (8 * message.length) * toPoly c) %ₘ generator p := by
  obtain ⟨hmonic, hdegree⟩ := generator_monic p
  have hdvd : generator p ∣ toPoly (feed p c message) -
      (X ^ w * messagePoly message + X ^ (8 * message.length) * toPoly c) := by
    induction message generalizing c with
    | nil =>
      refine ⟨0, ?_⟩
      rw [messagePoly, List.length_nil]
      show toPoly c - _ = _
      ring
    | cons byte message ih =>
      obtain ⟨q, hq⟩ := ih (shiftBits p 8 (c ^^^ byte.setWidth w))
      obtain ⟨r, hr⟩ := dvd_toPoly_shiftBits p 8 (c ^^^ byte.setWidth w)
      refine ⟨q + X ^ (8 * message.length) * r, ?_⟩
      have hexp : (X : (ZMod 2)[X]) ^ w = X ^ 8 * X ^ (w - 8) := by
        rw [← pow_add, Nat.add_sub_cancel' hw]
      rw [toPoly_xor, toPoly_setWidth hw] at hr
      show toPoly (feed p (shiftBits p 8 (c ^^^ byte.setWidth w)) message) - _ = _
      rw [messagePoly, List.length_cons, Nat.mul_add, pow_add, hexp]
      rw [hexp] at hq
      linear_combination hq + X ^ (8 * message.length) * hr
  obtain ⟨q, hq⟩ := hdvd
  have hunique := div_modByMonic_unique (f := X ^ w * messagePoly message +
    X ^ (8 * message.length) * toPoly c) (-q) (toPoly (feed p c message)) hmonic
    ⟨by linear_combination hq, by rw [hdegree]; exact degree_toPoly_lt _⟩
  exact hunique.2.symm

end BfMultiplayer.CrcRegister

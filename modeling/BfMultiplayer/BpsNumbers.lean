import BfMultiplayer.BijectiveNumerals
import Mathlib.Data.UInt
import Mathlib.Tactic.Positivity
import Mathlib.Tactic.Ring

/-!
# The numbers of a BPS patch

`writenum` stores a `size_t` in base 128, least digit first, with the top bit set
on the last byte; it takes one from what remains after each byte, so the stored
digits are a bijective numeral of the value plus one. `decodenum` reads it back
with a check of every shift and every sum. It has no check that the patch still
has bytes, and none that the shift is below the width of `size_t`.
-/

namespace BfMultiplayer.BpsNumbers

open BijectiveNumerals

/-- `SIZE_MAX` of the 64-bit target. -/
def sizeMax : ℕ := 2 ^ 64 - 1

/-- What a call of `decodenum` comes to. -/
inductive NumRead where
  /-- It returned `true` with this number, and these bytes are behind it. -/
  | number (out : ℕ) (rest : List UInt8)
  /-- It returned `false`. -/
  | tooBig
  /-- It read a byte behind the memory of the patch. -/
  | patchRead
  /-- It shifted by at least the width of `size_t`. -/
  | shift
  deriving DecidableEq, Repr

/-- The loop of `decodenum`: `patchat` holds the bytes from the pointer to the end
of the patch. -/
def decodenumLoop : List UInt8 → ℕ → ℕ → NumRead
  | [], _, _ => .patchRead
  | next :: rest, out, shift =>
    let addthis := (next &&& 0x7F).toNat + (if shift = 0 then 0 else 1)
    if 64 ≤ shift then .shift
    -- try_shift
    else if sizeMax >>> shift < addthis then .tooBig
    else
      let addthis := addthis <<< shift
      -- try_add
      if sizeMax - out < addthis then .tooBig
      else if next &&& 0x80 ≠ 0 then .number (out + addthis) rest
      else decodenumLoop rest (out + addthis) (shift + 7)

/-- `decodenum`. -/
def decodenum (patchat : List UInt8) : NumRead := decodenumLoop patchat 0 0

/-- The bytes that `writenum` appends to the patch. -/
def writenum (val : ℕ) : List UInt8 :=
  let tmpbyte := UInt8.ofNat (val &&& 0x7F)
  let tmpval := val >>> 7
  if tmpval = 0 then [tmpbyte ||| 0x80] else tmpbyte :: writenum (tmpval - 1)
termination_by val
decreasing_by
  simp only [Nat.shiftRight_eq_div_pow] at *
  omega

/-- The bytes of a digit string: the last digit carries the top bit. -/
def markLast : List (Fin 128) → List UInt8
  | [] => []
  | [d] => [UInt8.ofNat d.val ||| 0x80]
  | d :: e :: ds => UInt8.ofNat d.val :: markLast (e :: ds)

/-- The low seven bits of a digit byte are the digit, and the top bit is clear. -/
theorem digit_byte (d : Fin 128) :
    (UInt8.ofNat d.val &&& 0x7F).toNat = d.val ∧ UInt8.ofNat d.val &&& 0x80 = 0 := by
  revert d
  decide

/-- The low seven bits of a marked digit byte are the digit, and the top bit is set. -/
theorem marked_byte (d : Fin 128) :
    ((UInt8.ofNat d.val ||| 0x80) &&& 0x7F).toNat = d.val ∧
      (UInt8.ofNat d.val ||| 0x80) &&& 0x80 ≠ 0 := by
  revert d
  decide

/-- A byte is a digit byte or a marked digit byte of its low seven bits. -/
theorem byte_cases (byte : UInt8) : ∃ d : Fin 128,
    byte = UInt8.ofNat d.val ∨ byte = UInt8.ofNat d.val ||| 0x80 := by
  have h : ∀ n : Fin 256, UInt8.ofNat n.val = UInt8.ofNat (n.val % 128) ∨
      UInt8.ofNat n.val = UInt8.ofNat (n.val % 128) ||| 0x80 := by decide +kernel
  refine ⟨⟨byte.toNat % 128, Nat.mod_lt _ (by omega)⟩, ?_⟩
  simpa using h ⟨byte.toNat, byte.toNat_lt⟩

/-- `writenum` writes the bijective numeral of its argument plus one. -/
theorem writenum_eq (val : ℕ) : writenum val = markLast (digits 128 (val + 1)) := by
  induction val using Nat.strongRecOn with
  | ind val ih =>
    have hlow : val &&& 0x7F = val % 128 := Nat.and_two_pow_sub_one_eq_mod val 7
    have hhigh : val >>> 7 = val / 128 := Nat.shiftRight_eq_div_pow val 7
    rw [writenum, digits_succ]
    simp only [hlow, hhigh]
    by_cases hsmall : val / 128 = 0
    · rw [if_pos hsmall, hsmall, digits_zero]
      rfl
    · obtain ⟨next, hnext⟩ := Nat.exists_eq_succ_of_ne_zero hsmall
      have htail := ih next (by omega)
      rw [if_neg hsmall, hnext, Nat.succ_sub_one, htail, digits_succ]
      rfl

/-- What the digits `ds` add to the number when the first of them is read with
the shift `7 * k`. The first digit of a number counts one less than it does later. -/
def added (k : ℕ) (ds : List (Fin 128)) : ℕ :=
  if k = 0 then value ds - 1 else value ds * 128 ^ k

/-- Reading one byte with a shift that C defines. -/
theorem decodenumLoop_cons {next : UInt8} {rest : List UInt8} {out k addthis : ℕ}
    (hk : 7 * k < 64) (hout : out ≤ sizeMax)
    (hadd : addthis = ((next &&& 0x7F).toNat + if k = 0 then 0 else 1) * 128 ^ k) :
    decodenumLoop (next :: rest) out (7 * k) =
      if sizeMax < out + addthis then .tooBig
      else if next &&& 0x80 ≠ 0 then .number (out + addthis) rest
      else decodenumLoop rest (out + addthis) (7 * (k + 1)) := by
  have hpow : (2 : ℕ) ^ (7 * k) = 128 ^ k := by rw [pow_mul]; norm_num
  have hzero : (7 * k = 0) = (k = 0) := by simp
  have hshift : ((next &&& 0x7F).toNat + if k = 0 then 0 else 1) <<< (7 * k) = addthis := by
    rw [Nat.shiftLeft_eq, hpow, hadd]
  rw [decodenumLoop]
  simp only [hzero, if_neg (Nat.not_le.mpr hk), hshift]
  by_cases hbig : sizeMax >>> (7 * k) < (next &&& 0x7F).toNat + if k = 0 then 0 else 1
  · -- what is too big to be shifted is too big without the sum
    have hlt : sizeMax < addthis := by
      rw [Nat.shiftRight_eq_div_pow, hpow, Nat.div_lt_iff_lt_mul (by positivity)] at hbig
      rw [hadd]
      exact hbig
    have hsum : sizeMax < out + addthis := by omega
    rw [if_pos hbig, if_pos hsum]
  · rw [if_neg hbig]
    by_cases hsum : sizeMax - out < addthis
    · have hsum' : sizeMax < out + addthis := by omega
      rw [if_pos hsum, if_pos hsum']
    · have hsum' : ¬sizeMax < out + addthis := by omega
      rw [if_neg hsum, if_neg hsum']
      rfl

/-- A digit in front adds its own part to what the digits behind it add. -/
theorem added_cons (k : ℕ) (d : Fin 128) (ds : List (Fin 128)) :
    added k (d :: ds) = (d.val + if k = 0 then 0 else 1) * 128 ^ k + added (k + 1) ds := by
  unfold added
  rw [if_neg k.succ_ne_zero, value]
  by_cases hk : k = 0
  · rw [if_pos hk, if_pos hk, hk]
    omega
  · rw [if_neg hk, if_neg hk, pow_succ]
    ring

/-- No further digit adds nothing. -/
theorem added_nil (k : ℕ) : added k [] = 0 := by
  unfold added
  rw [value, Nat.zero_mul, Nat.zero_sub, ite_self]

/-- Digits behind the first one add at least the weight of their place. -/
theorem pow_le_added (k : ℕ) (d : Fin 128) (ds : List (Fin 128)) :
    128 ^ (k + 1) ≤ added (k + 1) (d :: ds) := by
  unfold added
  rw [if_neg k.succ_ne_zero, value]
  exact Nat.le_mul_of_pos_left _ (by omega)

/-- A place whose weight `size_t` holds is read with a shift that C defines. -/
theorem shift_lt_of_pow_le {k : ℕ} (h : 128 ^ k ≤ sizeMax) : 7 * k < 64 := by
  have hpow : (2 : ℕ) ^ (7 * k) = 128 ^ k := by rw [pow_mul]; norm_num
  have hlt : (2 : ℕ) ^ (7 * k) < 2 ^ 64 := by rw [hpow]; unfold sizeMax at h; omega
  exact (Nat.pow_lt_pow_iff_right (by omega)).mp hlt

/-- The loop reads a marked digit string as its sum, when `size_t` holds it. -/
theorem decodenumLoop_markLast (rest : List UInt8) :
    ∀ {ds : List (Fin 128)} {out k : ℕ}, ds ≠ [] → out + added k ds ≤ sizeMax → 7 * k < 64 →
      decodenumLoop (markLast ds ++ rest) out (7 * k) = .number (out + added k ds) rest
  | [], _, _, hne, _, _ => absurd rfl hne
  | [d], out, k, _, hfits, hk => by
    obtain ⟨hlow, htop⟩ := marked_byte d
    rw [added_cons] at hfits ⊢
    rw [added_nil] at hfits ⊢
    have hsum : ¬sizeMax < out + (d.val + if k = 0 then 0 else 1) * 128 ^ k := by omega
    rw [markLast, List.singleton_append, decodenumLoop_cons hk (by omega) (by rw [hlow]),
      if_neg hsum, if_pos htop, Nat.add_zero]
  | d :: e :: ds, out, k, _, hfits, hk => by
    obtain ⟨hlow, htop⟩ := digit_byte d
    rw [added_cons] at hfits ⊢
    have hnext : 7 * (k + 1) < 64 :=
      shift_lt_of_pow_le (le_trans (pow_le_added k e ds) (by omega))
    have hsum : ¬sizeMax < out + (d.val + if k = 0 then 0 else 1) * 128 ^ k := by omega
    rw [markLast, List.cons_append, decodenumLoop_cons hk (by omega) (by rw [hlow]),
      if_neg hsum, if_neg (not_not.mpr htop),
      decodenumLoop_markLast rest (List.cons_ne_nil e ds) (by omega) hnext, Nat.add_assoc]

/-- A number that the loop returns is the sum of a marked digit string that the
bytes begin with. -/
theorem markLast_of_decodenumLoop {rest : List UInt8} :
    ∀ {bytes : List UInt8} {out k n : ℕ}, out ≤ sizeMax →
      decodenumLoop bytes out (7 * k) = .number n rest →
      n ≤ sizeMax ∧ ∃ ds, ds ≠ [] ∧ bytes = markLast ds ++ rest ∧ n = out + added k ds
  | [], _, _, _, _, h => by
    rw [decodenumLoop] at h
    exact NumRead.noConfusion h
  | next :: bytes, out, k, n, hout, h => by
    have hk : 7 * k < 64 := by
      by_contra hge
      rw [decodenumLoop] at h
      simp only [if_pos (Nat.not_lt.mp hge)] at h
      exact NumRead.noConfusion h
    obtain ⟨addthis, hadd⟩ : ∃ addthis, addthis =
        ((next &&& 0x7F).toNat + if k = 0 then 0 else 1) * 128 ^ k := ⟨_, rfl⟩
    rw [decodenumLoop_cons hk hout hadd] at h
    by_cases hsum : sizeMax < out + addthis
    · rw [if_pos hsum] at h
      exact NumRead.noConfusion h
    · rw [if_neg hsum] at h
      obtain ⟨d, rfl | rfl⟩ := byte_cases next
      · obtain ⟨hlow, htop⟩ := digit_byte d
        rw [hlow] at hadd
        rw [if_neg (not_not.mpr htop)] at h
        obtain ⟨hn, ds, hne, hbytes, hvalue⟩ :=
          markLast_of_decodenumLoop (Nat.not_lt.mp hsum) h
        obtain ⟨e, ds', rfl⟩ := List.exists_cons_of_ne_nil hne
        refine ⟨hn, d :: e :: ds', List.cons_ne_nil d _, ?_, ?_⟩
        · rw [markLast, List.cons_append, hbytes]
        · rw [added_cons, hvalue, hadd, Nat.add_assoc]
      · obtain ⟨hlow, htop⟩ := marked_byte d
        rw [hlow] at hadd
        rw [if_pos htop, NumRead.number.injEq] at h
        obtain ⟨hvalue, hrest⟩ := h
        refine ⟨by omega, [d], List.cons_ne_nil d [], ?_, ?_⟩
        · rw [markLast, List.singleton_append, hrest]
        · rw [added_cons, added_nil, ← hvalue, hadd, Nat.add_zero]

/-- `decodenum` returns exactly the numbers that `writenum` writes: the bytes it
takes are the spelling of the number, which fits `size_t`, and there is no other. -/
theorem decodenum_eq_number_iff (bytes rest : List UInt8) (n : ℕ) :
    decodenum bytes = .number n rest ↔ n ≤ sizeMax ∧ bytes = writenum n ++ rest := by
  unfold decodenum
  constructor
  · intro h
    obtain ⟨hn, ds, hne, hbytes, hvalue⟩ :=
      markLast_of_decodenumLoop (k := 0) (Nat.zero_le sizeMax) h
    obtain ⟨d, ds', rfl⟩ := List.exists_cons_of_ne_nil hne
    have hsucc : n + 1 = value (d :: ds') := by
      rw [hvalue, added, if_pos rfl, value]
      omega
    refine ⟨hn, ?_⟩
    rw [writenum_eq, hsucc, digits_value, hbytes]
  · rintro ⟨hn, rfl⟩
    have hne : digits 128 (n + 1) ≠ [] := by rw [digits_succ]; exact List.cons_ne_nil _ _
    have hsum : 0 + added 0 (digits 128 (n + 1)) = n := by
      rw [added, if_pos rfl, value_digits, Nat.add_sub_cancel, Nat.zero_add]
    have hfits : 0 + added 0 (digits 128 (n + 1)) ≤ sizeMax := by rw [hsum]; exact hn
    rw [writenum_eq, ← Nat.mul_zero 7, decodenumLoop_markLast rest hne hfits (by omega), hsum]

/-- A number takes at least one byte. -/
theorem writenum_ne_nil (n : ℕ) : writenum n ≠ [] := by
  rw [writenum_eq, digits_succ]
  cases digits 128 (n / 128) <;> exact List.cons_ne_nil _ _

/-- Behind a number that was read there are fewer bytes than in front of it. -/
theorem length_lt_of_decodenum {bytes rest : List UInt8} {n : ℕ}
    (h : decodenum bytes = .number n rest) : rest.length < bytes.length := by
  obtain ⟨-, rfl⟩ := (decodenum_eq_number_iff _ _ _).mp h
  have hpos := List.length_pos_of_ne_nil (writenum_ne_nil n)
  rw [List.length_append]
  omega

/-- The bytes of digits that no marked digit ends. -/
def unfinished (ds : List (Fin 128)) : List UInt8 := ds.map fun d => UInt8.ofNat d.val

/-- The digits `ds` fit `size_t` when the first is read with the shift `7 * k`,
and each of them is read with a shift that C defines. -/
def OpenDigits (out k : ℕ) (ds : List (Fin 128)) : Prop :=
  out + added k ds ≤ sizeMax ∧ (ds ≠ [] → 7 * (k + ds.length - 1) < 64)

/-- The loop goes on behind digits that no marked digit ends. -/
theorem decodenumLoop_unfinished (rest : List UInt8) :
    ∀ {ds : List (Fin 128)} {out k : ℕ}, OpenDigits out k ds →
      decodenumLoop (unfinished ds ++ rest) out (7 * k) =
        decodenumLoop rest (out + added k ds) (7 * (k + ds.length))
  | [], out, k, h => by
    rw [added_nil]
    rfl
  | d :: ds, out, k, ⟨hfits, hshift⟩ => by
    obtain ⟨hlow, htop⟩ := digit_byte d
    have hlast := hshift (List.cons_ne_nil d ds)
    rw [List.length_cons] at hlast ⊢
    rw [added_cons] at hfits ⊢
    have hsum : ¬sizeMax < out + (d.val + if k = 0 then 0 else 1) * 128 ^ k := by omega
    have hopen : OpenDigits (out + (d.val + if k = 0 then 0 else 1) * 128 ^ k) (k + 1) ds :=
      ⟨by omega, fun _ => by omega⟩
    have hnext := decodenumLoop_unfinished rest hopen
    rw [unfinished, List.map_cons, List.cons_append, decodenumLoop_cons (by omega) (by omega)
      (by rw [hlow]), if_neg hsum, if_neg (not_not.mpr htop)]
    rw [show k + (ds.length + 1) = k + 1 + ds.length by omega, ← Nat.add_assoc]
    exact hnext

/-- Where the loop neither returns a number nor finds one too big, it has read
digits that no marked digit ends. -/
theorem unfinished_of_decodenumLoop :
    ∀ (bytes : List UInt8) {out k : ℕ}, out ≤ sizeMax →
      (decodenumLoop bytes out (7 * k) = .patchRead →
        ∃ ds, OpenDigits out k ds ∧ bytes = unfinished ds) ∧
      (decodenumLoop bytes out (7 * k) = .shift →
        ∃ ds rest, OpenDigits out k ds ∧ 64 ≤ 7 * (k + ds.length) ∧ rest ≠ [] ∧
          bytes = unfinished ds ++ rest)
  | [], out, k, hout => by
    refine ⟨fun _ => ⟨[], ⟨by rw [added_nil]; exact hout, fun h => absurd rfl h⟩, rfl⟩,
      fun h => ?_⟩
    rw [decodenumLoop] at h
    exact NumRead.noConfusion h
  | next :: bytes, out, k, hout => by
    by_cases hk : 7 * k < 64
    · obtain ⟨addthis, hadd⟩ : ∃ addthis, addthis =
          ((next &&& 0x7F).toNat + if k = 0 then 0 else 1) * 128 ^ k := ⟨_, rfl⟩
      rw [decodenumLoop_cons hk hout hadd]
      by_cases hsum : sizeMax < out + addthis
      · rw [if_pos hsum]
        exact ⟨fun h => NumRead.noConfusion h, fun h => NumRead.noConfusion h⟩
      · rw [if_neg hsum]
        obtain ⟨d, rfl | rfl⟩ := byte_cases next
        · obtain ⟨hlow, htop⟩ := digit_byte d
          rw [hlow] at hadd
          rw [if_neg (not_not.mpr htop)]
          obtain ⟨hread, hshift⟩ :=
            unfinished_of_decodenumLoop bytes (k := k + 1) (Nat.not_lt.mp hsum)
          have hcons : ∀ {ds}, OpenDigits (out + addthis) (k + 1) ds → OpenDigits out k (d :: ds) := by
            rintro ds ⟨hfits, hlast⟩
            refine ⟨by rw [added_cons]; omega, fun _ => ?_⟩
            rw [List.length_cons]
            by_cases hds : ds = []
            · rw [hds, List.length_nil]
              omega
            · have := hlast hds
              omega
          constructor
          · intro h
            obtain ⟨ds, hopen, rfl⟩ := hread h
            exact ⟨d :: ds, hcons hopen, rfl⟩
          · intro h
            obtain ⟨ds, rest, hopen, hlong, hrest, rfl⟩ := hshift h
            exact ⟨d :: ds, rest, hcons hopen, by rw [List.length_cons]; omega, hrest, rfl⟩
        · obtain ⟨-, htop⟩ := marked_byte d
          rw [if_pos htop]
          exact ⟨fun h => NumRead.noConfusion h, fun h => NumRead.noConfusion h⟩
    · -- the shift is already too wide for `size_t`
      refine ⟨fun h => ?_, fun _ => ⟨[], next :: bytes,
        ⟨by rw [added_nil]; exact hout, fun h => absurd rfl h⟩,
        by rw [List.length_nil]; omega, List.cons_ne_nil next bytes, rfl⟩⟩
      rw [decodenumLoop] at h
      simp only [if_pos (Nat.not_lt.mp hk)] at h
      exact NumRead.noConfusion h

/-- The digits from the start of a number are open when there are at most ten of
them and `size_t` holds what they stand for. -/
theorem openDigits_iff (ds : List (Fin 128)) :
    OpenDigits 0 0 ds ↔ ds.length ≤ 10 ∧ value ds ≤ sizeMax + 1 := by
  have hsum : added 0 ds = value ds - 1 := if_pos rfl
  unfold OpenDigits
  rw [hsum]
  constructor
  · rintro ⟨hfits, hlast⟩
    refine ⟨?_, by omega⟩
    by_cases hds : ds = []
    · rw [hds, List.length_nil]
      omega
    · have := hlast hds
      omega
  · rintro ⟨hlen, hvalue⟩
    exact ⟨by omega, fun _ => by omega⟩

/-- Every outcome of `decodenum`, for any bytes of the patch. It returns a number
exactly when `size_t` holds the number and the bytes begin with the one spelling
that `writenum` gives it. It reads behind the patch exactly when the patch ends
within at most ten unmarked digits that `size_t` holds, and makes a shift that C
leaves undefined exactly when a byte follows ten such digits. -/
theorem decodenum_outcomes (bytes : List UInt8) :
    (∀ n rest, decodenum bytes = .number n rest ↔
      n ≤ sizeMax ∧ bytes = writenum n ++ rest) ∧
    (decodenum bytes = .patchRead ↔
      ∃ ds, ds.length ≤ 10 ∧ value ds ≤ sizeMax + 1 ∧ bytes = unfinished ds) ∧
    (decodenum bytes = .shift ↔
      ∃ ds rest, ds.length = 10 ∧ value ds ≤ sizeMax + 1 ∧ rest ≠ [] ∧
        bytes = unfinished ds ++ rest) := by
  obtain ⟨hread, hshift⟩ :=
    unfinished_of_decodenumLoop bytes (k := 0) (Nat.zero_le sizeMax)
  refine ⟨fun n rest => decodenum_eq_number_iff bytes rest n, ⟨fun h => ?_, ?_⟩,
    ⟨fun h => ?_, ?_⟩⟩
  · obtain ⟨ds, hopen, rfl⟩ := hread h
    obtain ⟨hlen, hvalue⟩ := (openDigits_iff ds).mp hopen
    exact ⟨ds, hlen, hvalue, rfl⟩
  · rintro ⟨ds, hlen, hvalue, rfl⟩
    have hloop := decodenumLoop_unfinished [] ((openDigits_iff ds).mpr ⟨hlen, hvalue⟩)
    rw [List.append_nil, Nat.mul_zero] at hloop
    rw [decodenum, hloop, decodenumLoop]
  · obtain ⟨ds, rest, hopen, hlong, hrest, rfl⟩ := hshift h
    obtain ⟨hlen, hvalue⟩ := (openDigits_iff ds).mp hopen
    exact ⟨ds, rest, by omega, hvalue, hrest, rfl⟩
  · rintro ⟨ds, rest, hlen, hvalue, hrest, rfl⟩
    obtain ⟨next, rest, rfl⟩ := List.exists_cons_of_ne_nil hrest
    have hloop := decodenumLoop_unfinished (next :: rest)
      ((openDigits_iff ds).mpr ⟨hlen.le, hvalue⟩)
    rw [Nat.mul_zero] at hloop
    rw [decodenum, hloop, hlen, decodenumLoop]
    simp only [show 64 ≤ 7 * (0 + 10) by omega, if_pos]

end BfMultiplayer.BpsNumbers

import Mathlib.Tactic.Common
import Mathlib.Data.Fin.Basic
import Mathlib.Data.List.OfFn

/-!
# Byte arrays of fixed capacity and checked copies

A C array is a function from its indices to bytes. The copy `memcpy` has the
bounds that C leaves to its caller as a test: a copy that would leave its
source or its destination has no result. The lemmas describe a copy by the
bytes it moves and by the bytes it leaves alone, so that later proofs never
look at the update itself.
-/

namespace BfMultiplayer.ByteBuffer

/-- A C array of `cap` bytes. -/
abbrev Buffer (cap : ℕ) := Fin cap → UInt8

/-- An array of zero bytes. -/
def Buffer.zero (cap : ℕ) : Buffer cap := fun _ => 0

/-- Overwrite the `n` bytes of `dst` from `dstOff` on with the bytes of `src`
from `srcOff` on. Positions outside either array are left alone. -/
def blit {m k : ℕ} (dst : Buffer m) (dstOff : ℕ) (src : Buffer k) (srcOff n : ℕ) : Buffer m :=
  fun i =>
    if h : dstOff ≤ i.val ∧ i.val < dstOff + n ∧ srcOff + (i.val - dstOff) < k then
      src ⟨srcOff + (i.val - dstOff), h.2.2⟩
    else dst i

/-- The C copy with its unchecked precondition as a test. `none` is a copy
that reads outside its source or writes outside its destination. -/
def memcpy {m k : ℕ} (dst : Buffer m) (dstOff : ℕ) (src : Buffer k) (srcOff n : ℕ) :
    Option (Buffer m) :=
  if dstOff + n ≤ m ∧ srcOff + n ≤ k then some (blit dst dstOff src srcOff n) else none

/-- The byte at a position, when the array has one there. -/
def byteAt {cap : ℕ} (b : Buffer cap) (i : ℕ) : Option UInt8 :=
  if h : i < cap then some (b ⟨i, h⟩) else none

/-- The first `n` bytes of an array as a list, at most its whole content. -/
def firstBytes {cap : ℕ} (b : Buffer cap) (n : ℕ) : List UInt8 :=
  List.ofFn fun i : Fin (min n cap) => b (i.castLE (Nat.min_le_right n cap))

/-- The array that a list of bytes fills exactly. -/
def ofBytes (bytes : List UInt8) : Buffer bytes.length := bytes.get

/-- Two arrays hold the same `n` bytes from two offsets on. -/
def SameBytes {m k : ℕ} (a : Buffer m) (aOff : ℕ) (b : Buffer k) (bOff n : ℕ) : Prop :=
  ∀ j < n, byteAt a (aOff + j) = byteAt b (bOff + j)

/-- A copy has a result exactly when both of its ranges are inside. -/
theorem memcpy_isSome_iff {m k : ℕ} {dst : Buffer m} {dstOff : ℕ} {src : Buffer k}
    {srcOff n : ℕ} :
    (memcpy dst dstOff src srcOff n).isSome ↔ dstOff + n ≤ m ∧ srcOff + n ≤ k := by
  unfold memcpy
  split <;> simp_all

/-- The result of a copy whose ranges are both inside. -/
theorem memcpy_eq_some {m k : ℕ} {dst : Buffer m} {dstOff : ℕ} {src : Buffer k}
    {srcOff n : ℕ} (hdst : dstOff + n ≤ m) (hsrc : srcOff + n ≤ k) :
    memcpy dst dstOff src srcOff n = some (blit dst dstOff src srcOff n) :=
  if_pos ⟨hdst, hsrc⟩

/-- A copy whose ranges are both inside has a result. -/
theorem exists_memcpy {m k : ℕ} (dst : Buffer m) (dstOff : ℕ) (src : Buffer k) (srcOff n : ℕ)
    (hdst : dstOff + n ≤ m) (hsrc : srcOff + n ≤ k) :
    ∃ out, memcpy dst dstOff src srcOff n = some out := ⟨_, memcpy_eq_some hdst hsrc⟩

/-- A copy that has a result had both ranges inside. -/
theorem memcpy_bounds {m k : ℕ} {dst out : Buffer m} {dstOff : ℕ} {src : Buffer k}
    {srcOff n : ℕ} (h : memcpy dst dstOff src srcOff n = some out) :
    dstOff + n ≤ m ∧ srcOff + n ≤ k :=
  memcpy_isSome_iff.mp (Option.isSome_of_eq_some h)

/-- The copied range of the result holds the bytes of the source. -/
theorem memcpy_inside {m k : ℕ} {dst out : Buffer m} {dstOff : ℕ} {src : Buffer k}
    {srcOff n : ℕ} (h : memcpy dst dstOff src srcOff n = some out) :
    SameBytes out dstOff src srcOff n := by
  obtain ⟨hdst, hsrc⟩ := memcpy_bounds h
  rw [memcpy_eq_some hdst hsrc] at h
  cases h
  intro j hj
  have hl : dstOff + j < m := by omega
  have hr : srcOff + j < k := by omega
  have hi : dstOff ≤ dstOff + j ∧ dstOff + j < dstOff + n ∧ srcOff + j < k := by omega
  simp only [byteAt, dif_pos hl, dif_pos hr, blit, Nat.add_sub_cancel_left, dif_pos hi]

/-- The bytes of the destination outside the copied range stay. -/
theorem memcpy_outside {m k : ℕ} {dst out : Buffer m} {dstOff : ℕ} {src : Buffer k}
    {srcOff n : ℕ} (h : memcpy dst dstOff src srcOff n = some out) {i : ℕ}
    (hi : i < dstOff ∨ dstOff + n ≤ i) : byteAt out i = byteAt dst i := by
  obtain ⟨hdst, hsrc⟩ := memcpy_bounds h
  rw [memcpy_eq_some hdst hsrc] at h
  cases h
  by_cases hm : i < m
  · have hn : ¬(dstOff ≤ i ∧ i < dstOff + n ∧ srcOff + (i - dstOff) < k) := by omega
    simp only [byteAt, dif_pos hm, blit, dif_neg hn]
  · simp only [byteAt, dif_neg hm]

/-- A copy depends on the bytes it reads only. -/
theorem memcpy_congr {m k : ℕ} {dst : Buffer m} {dstOff : ℕ} {src src' : Buffer k} {srcOff n : ℕ}
    (h : ∀ j < n, byteAt src (srcOff + j) = byteAt src' (srcOff + j)) :
    memcpy dst dstOff src srcOff n = memcpy dst dstOff src' srcOff n := by
  have hblit : blit dst dstOff src srcOff n = blit dst dstOff src' srcOff n := by
    funext i
    unfold blit
    split
    · rename_i hi
      have hbyte := h (i.val - dstOff) (by omega)
      simp only [byteAt, dif_pos hi.2.2, Option.some.injEq] at hbyte
      exact hbyte
    · rfl
  rw [memcpy, memcpy, hblit]

/-- Reading the same bytes is symmetric. -/
theorem SameBytes.symm {m k : ℕ} {a : Buffer m} {aOff : ℕ} {b : Buffer k} {bOff n : ℕ}
    (h : SameBytes a aOff b bOff n) : SameBytes b bOff a aOff n :=
  fun j hj => (h j hj).symm

/-- Reading the same bytes is transitive. -/
theorem SameBytes.trans {m k l : ℕ} {a : Buffer m} {aOff : ℕ} {b : Buffer k} {bOff : ℕ}
    {c : Buffer l} {cOff n : ℕ} (hab : SameBytes a aOff b bOff n)
    (hbc : SameBytes b bOff c cOff n) : SameBytes a aOff c cOff n :=
  fun j hj => (hab j hj).trans (hbc j hj)

/-- Frame rule: a copy into a disjoint range keeps what a range holds. -/
theorem SameBytes.frame {m k l : ℕ} {dst out : Buffer m} {dstOff : ℕ} {src : Buffer k}
    {srcOff n : ℕ} {b : Buffer l} {off bOff len : ℕ}
    (hcopy : memcpy dst dstOff src srcOff n = some out)
    (hsame : SameBytes dst off b bOff len)
    (hdisj : off + len ≤ dstOff ∨ dstOff + n ≤ off) : SameBytes out off b bOff len := by
  intro j hj
  rw [memcpy_outside hcopy (by omega)]
  exact hsame j hj

/-- An array has as many first bytes as are asked for, if it is large enough. -/
theorem length_firstBytes {cap n : ℕ} (b : Buffer cap) (h : n ≤ cap) :
    (firstBytes b n).length = n := by
  simp only [firstBytes, List.length_ofFn, Nat.min_eq_left h]

/-- Inside the array, a first byte is the byte at its position. -/
theorem getElem?_firstBytes {cap n j : ℕ} (b : Buffer cap) (hn : n ≤ cap) (hj : j < n) :
    (firstBytes b n)[j]? = byteAt b j := by
  have hmin : j < min n cap := by omega
  have hcap : j < cap := by omega
  simp only [firstBytes, List.getElem?_ofFn, dif_pos hmin, byteAt, dif_pos hcap, Fin.castLE_mk]

/-- Inside both arrays, equal first bytes are equal lists. -/
theorem firstBytes_eq_iff {m k n : ℕ} {a : Buffer m} {b : Buffer k} (hm : n ≤ m) (hk : n ≤ k) :
    firstBytes a n = firstBytes b n ↔ SameBytes a 0 b 0 n := by
  constructor
  · intro h j hj
    rw [Nat.zero_add, ← getElem?_firstBytes a hm hj, ← getElem?_firstBytes b hk hj, h]
  · intro h
    apply List.ext_getElem?
    intro j
    by_cases hj : j < n
    · rw [getElem?_firstBytes a hm hj, getElem?_firstBytes b hk hj]
      simpa only [Nat.zero_add] using h j hj
    · rw [List.getElem?_eq_none (by rw [length_firstBytes a hm]; omega),
        List.getElem?_eq_none (by rw [length_firstBytes b hk]; omega)]

/-- A range of a larger array, as a list. -/
theorem firstBytes_eq_range {m k off n size : ℕ} {a : Buffer m} {b : Buffer k}
    (h : SameBytes a 0 b off n) (hm : n ≤ m) (hsize : off + n ≤ size) (hk : size ≤ k) :
    firstBytes a n = ((firstBytes b size).drop off).take n := by
  have hlength := length_firstBytes b hk
  apply List.ext_getElem?
  intro j
  by_cases hj : j < n
  · have hsame := h j hj
    rw [Nat.zero_add] at hsame
    rw [getElem?_firstBytes a hm hj, hsame, List.getElem?_take_of_lt hj, List.getElem?_drop,
      getElem?_firstBytes b hk (by omega)]
  · rw [List.getElem?_eq_none (by rw [length_firstBytes a hm]; omega),
      List.getElem?_eq_none (by rw [List.length_take, List.length_drop]; omega)]

/-- An array made of a list gives the list back. -/
theorem firstBytes_ofBytes (bytes : List UInt8) :
    firstBytes (ofBytes bytes) bytes.length = bytes := by
  apply List.ext_getElem?
  intro j
  by_cases hj : j < bytes.length
  · have hj' : j < min bytes.length bytes.length := by omega
    simp only [firstBytes, List.getElem?_ofFn, dif_pos hj', ofBytes, List.get_eq_getElem,
      Fin.val_castLE, List.getElem?_eq_getElem hj]
  · rw [List.getElem?_eq_none (by simp only [firstBytes, List.length_ofFn]; omega),
      List.getElem?_eq_none (by omega)]

/-- A byte of the array that a list fills is the list's. -/
theorem byteAt_ofBytes (bytes : List UInt8) (j : ℕ) : byteAt (ofBytes bytes) j = bytes[j]? := by
  by_cases hj : j < bytes.length
  · simp only [byteAt, dif_pos hj, ofBytes, List.get_eq_getElem, List.getElem?_eq_getElem hj]
  · rw [byteAt, dif_neg hj, List.getElem?_eq_none (by omega)]

/-- The first bytes of an array are a list when each of them is the list's. -/
theorem firstBytes_eq_of_byteAt {cap : ℕ} {b : Buffer cap} {bytes : List UInt8}
    (hcap : bytes.length ≤ cap) (h : ∀ j < bytes.length, byteAt b j = bytes[j]?) :
    firstBytes b bytes.length = bytes := by
  apply List.ext_getElem?
  intro j
  by_cases hj : j < bytes.length
  · rw [getElem?_firstBytes b hcap hj, h j hj]
  · rw [List.getElem?_eq_none (by rw [length_firstBytes b hcap]; omega),
      List.getElem?_eq_none (by omega)]

/-- Copying nothing leaves the destination. -/
theorem memcpy_zero {m k : ℕ} {dst : Buffer m} {dstOff : ℕ} {src : Buffer k} {srcOff : ℕ}
    (hdst : dstOff ≤ m) (hsrc : srcOff ≤ k) : memcpy dst dstOff src srcOff 0 = some dst := by
  have hblit : blit dst dstOff src srcOff 0 = dst := by
    funext i
    have hempty : ¬(dstOff ≤ i.val ∧ i.val < dstOff + 0 ∧ srcOff + (i.val - dstOff) < k) := by
      omega
    rw [blit, dif_neg hempty]
  rw [memcpy_eq_some (by omega) (by omega), hblit]

end BfMultiplayer.ByteBuffer

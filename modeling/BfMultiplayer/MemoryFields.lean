import BfMultiplayer.ByteBuffer
import BfMultiplayer.CLayout
import Mathlib.Algebra.Group.Nat.Defs

/-!
# Fields in memory

A field of an object is a range of its bytes. Assigning to a field writes its
bytes and leaves those of all others; an integer field holds the bytes of the
integer, the lowest first. Objects with the same bytes in a range have the same
fields there.
-/

namespace BfMultiplayer.MemoryFields

open ByteBuffer CLayout

/-- The bytes of a field. -/
def readBytes {cap : ℕ} (memory : Buffer cap) (off n : ℕ) : List UInt8 :=
  ((firstBytes memory cap).drop off).take n

/-- Assign bytes to a field. -/
def writeBytes {cap : ℕ} (memory : Buffer cap) (off : ℕ) (bytes : List UInt8) : Buffer cap :=
  blit memory off (ofBytes bytes) 0 bytes.length

/-- The value of an unsigned integer field. -/
def readNat {cap : ℕ} (memory : Buffer cap) (off width : ℕ) : ℕ :=
  ofLittleEndian (readBytes memory off width)

/-- Assign to an unsigned integer field. -/
def writeNat {cap : ℕ} (memory : Buffer cap) (off width n : ℕ) : Buffer cap :=
  writeBytes memory off (littleEndian width n)

/-- A field has its size. -/
theorem length_readBytes {cap off n : ℕ} (memory : Buffer cap) (h : off + n ≤ cap) :
    (readBytes memory off n).length = n := by
  rw [readBytes, List.length_take, List.length_drop, length_firstBytes memory (Nat.le_refl cap)]
  omega

/-- A byte of a field is one of the object. -/
theorem getElem?_readBytes {cap off n j : ℕ} (memory : Buffer cap) (h : off + n ≤ cap)
    (hj : j < n) : (readBytes memory off n)[j]? = byteAt memory (off + j) := by
  rw [readBytes, List.getElem?_take_of_lt hj, List.getElem?_drop,
    getElem?_firstBytes memory (Nat.le_refl cap) (by omega)]

/-- A field is a list when each of its bytes is the list's. -/
theorem readBytes_eq_of_byteAt {cap off : ℕ} {memory : Buffer cap} {bytes : List UInt8}
    (hcap : off + bytes.length ≤ cap)
    (h : ∀ j < bytes.length, byteAt memory (off + j) = bytes[j]?) :
    readBytes memory off bytes.length = bytes := by
  apply List.ext_getElem?
  intro j
  by_cases hj : j < bytes.length
  · rw [getElem?_readBytes memory hcap hj, h j hj]
  · rw [List.getElem?_eq_none (by rw [length_readBytes memory hcap]; omega),
      List.getElem?_eq_none (by omega)]

/-- The same bytes are the same field. -/
theorem readBytes_congr {m k aOff bOff n : ℕ} {a : Buffer m} {b : Buffer k}
    (h : SameBytes a aOff b bOff n) (hb : bOff + n ≤ k) (ha : aOff + n ≤ m) :
    readBytes a aOff n = readBytes b bOff n := by
  have hlength := length_readBytes b hb
  have heq : readBytes a aOff (readBytes b bOff n).length = readBytes b bOff n := by
    refine readBytes_eq_of_byteAt (by omega) fun j hj => ?_
    rw [hlength] at hj
    rw [getElem?_readBytes b hb hj]
    exact h j hj
  rw [hlength] at heq
  exact heq

/-- A copy that writes bytes of a list is an assignment. -/
theorem memcpy_writeBytes {cap off : ℕ} (memory : Buffer cap) {bytes : List UInt8}
    (h : off + bytes.length ≤ cap) :
    memcpy memory off (ofBytes bytes) 0 bytes.length = some (writeBytes memory off bytes) :=
  memcpy_eq_some h (by omega)

/-- The bytes that were assigned are read back. -/
theorem readBytes_writeBytes {cap off : ℕ} (memory : Buffer cap) {bytes : List UInt8}
    (h : off + bytes.length ≤ cap) :
    readBytes (writeBytes memory off bytes) off bytes.length = bytes := by
  refine readBytes_eq_of_byteAt h fun j hj => ?_
  have hinside := memcpy_inside (memcpy_writeBytes memory h) j hj
  rw [Nat.zero_add, byteAt_ofBytes] at hinside
  exact hinside

/-- An assignment leaves the other fields. -/
theorem readBytes_writeBytes_of_disjoint {cap off other n : ℕ} (memory : Buffer cap)
    {bytes : List UInt8} (h : off + bytes.length ≤ cap) (hother : other + n ≤ cap)
    (hdisjoint : other + n ≤ off ∨ off + bytes.length ≤ other) :
    readBytes (writeBytes memory off bytes) other n = readBytes memory other n := by
  refine readBytes_congr (fun j hj => ?_) hother hother
  exact memcpy_outside (memcpy_writeBytes memory h) (by omega)

/-- An integer that fits into its field is read back. -/
theorem readNat_writeNat {cap off width n : ℕ} (memory : Buffer cap) (h : off + width ≤ cap)
    (hn : n < 256 ^ width) : readNat (writeNat memory off width n) off width = n := by
  have hlength := length_littleEndian width n
  have hread : readBytes (writeBytes memory off (littleEndian width n)) off
      (littleEndian width n).length = littleEndian width n :=
    readBytes_writeBytes memory (by omega)
  rw [hlength] at hread
  rw [readNat, writeNat, hread, ofLittleEndian_littleEndian hn]

/-- Assigning to an integer field leaves the other fields. -/
theorem readBytes_writeNat_of_disjoint {cap off width n other m : ℕ} (memory : Buffer cap)
    (h : off + width ≤ cap) (hother : other + m ≤ cap)
    (hdisjoint : other + m ≤ off ∨ off + width ≤ other) :
    readBytes (writeNat memory off width n) other m = readBytes memory other m := by
  have hlength := length_littleEndian width n
  exact readBytes_writeBytes_of_disjoint memory (by omega) hother (by omega)

/-- A part of a field. -/
theorem take_drop_readBytes {cap off n i k : ℕ} (memory : Buffer cap) (h : i + k ≤ n) :
    ((readBytes memory off n).drop i).take k = readBytes memory (off + i) k := by
  rw [readBytes, readBytes, List.drop_take, List.take_take, List.drop_drop]
  congr 1
  omega

/-- Objects with the same bytes in a range have the same integers there. -/
theorem readNat_congr {m k aOff bOff n i width : ℕ} {a : Buffer m} {b : Buffer k}
    (h : readBytes a aOff n = readBytes b bOff n) (hi : i + width ≤ n) :
    readNat a (aOff + i) width = readNat b (bOff + i) width := by
  rw [readNat, readNat, ← take_drop_readBytes a hi, ← take_drop_readBytes b hi, h]

end BfMultiplayer.MemoryFields

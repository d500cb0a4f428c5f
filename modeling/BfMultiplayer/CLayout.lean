import Mathlib.Tactic.Common
import Mathlib.Algebra.Group.Nat.Defs

/-!
# Sizes of C types and the bytes of an integer

The size of a structure follows from the sizes and alignments of its members:
each member begins at the next multiple of its alignment, and the whole is
padded to the largest one. An integer lies in memory with its lowest byte first.
-/

namespace BfMultiplayer.CLayout

/-- The size and the alignment of a C type. -/
structure Layout where
  /-- `sizeof`. -/
  size : ℕ
  /-- `alignof`. -/
  align : ℕ

/-- The next multiple of an alignment. -/
def alignUp (n align : ℕ) : ℕ := n + (align - n % align) % align

/-- A scalar, aligned to its size. -/
def scalar (size : ℕ) : Layout := ⟨size, size⟩

/-- An array of elements of one type. -/
def array (count : ℕ) (element : Layout) : Layout := ⟨count * element.size, element.align⟩

/-- The largest alignment of some members. -/
def maxAlign (members : List Layout) : ℕ := (members.map Layout.align).foldr max 1

/-- Where some members end that are placed one after the other from an offset on. -/
def endOffset (offset : ℕ) (members : List Layout) : ℕ :=
  members.foldl (fun offset member => alignUp offset member.align + member.size) offset

/-- A structure with the given members. -/
def struct (members : List Layout) : Layout :=
  ⟨alignUp (endOffset 0 members) (maxAlign members), maxAlign members⟩

/-- A union of the given members. -/
def union (members : List Layout) : Layout :=
  ⟨alignUp ((members.map Layout.size).foldr max 0) (maxAlign members), maxAlign members⟩

/-- The bytes of an unsigned integer of a given width, the lowest first. -/
def littleEndian : ℕ → ℕ → List UInt8
  | 0, _ => []
  | width + 1, n => UInt8.ofNat (n % 256) :: littleEndian width (n / 256)

/-- The unsigned integer with the given bytes, the lowest first. -/
def ofLittleEndian : List UInt8 → ℕ
  | [] => 0
  | byte :: bytes => byte.toNat + 256 * ofLittleEndian bytes

/-- Rounding up goes up. -/
theorem le_alignUp (n align : ℕ) : n ≤ alignUp n align := by
  unfold alignUp
  omega

/-- Members end behind where they begin. -/
theorem le_endOffset (offset : ℕ) (members : List Layout) :
    offset ≤ endOffset offset members := by
  induction members generalizing offset with
  | nil => exact Nat.le_refl offset
  | cons member members ih =>
    have hhead := le_alignUp offset member.align
    have hrest := ih (alignUp offset member.align + member.size)
    have hcons : endOffset offset (member :: members) =
        endOffset (alignUp offset member.align + member.size) members := rfl
    omega

/-- A structure is at least as large as its first member. -/
theorem size_le_struct (member : Layout) (members : List Layout) :
    member.size ≤ (struct (member :: members)).size := by
  have hrest := le_endOffset (alignUp 0 member.align + member.size) members
  have hcons : endOffset 0 (member :: members) =
      endOffset (alignUp 0 member.align + member.size) members := rfl
  have hpadded := le_alignUp (endOffset 0 (member :: members)) (maxAlign (member :: members))
  have hsize : (struct (member :: members)).size =
      alignUp (endOffset 0 (member :: members)) (maxAlign (member :: members)) := rfl
  omega

/-- An integer has as many bytes as it is wide. -/
@[simp] theorem length_littleEndian (width n : ℕ) : (littleEndian width n).length = width := by
  induction width generalizing n with
  | zero => rfl
  | succ width ih => rw [littleEndian, List.length_cons, ih]

/-- An integer that fits into its width is read back from its bytes. -/
theorem ofLittleEndian_littleEndian {width n : ℕ} (h : n < 256 ^ width) :
    ofLittleEndian (littleEndian width n) = n := by
  induction width generalizing n with
  | zero =>
    rw [Nat.pow_zero] at h
    have hzero : n = 0 := by omega
    rw [hzero]
    rfl
  | succ width ih =>
    have hquot : n / 256 < 256 ^ width := by
      rw [Nat.pow_succ'] at h
      exact Nat.div_lt_of_lt_mul h
    have hrest := ih hquot
    have hbyte : (UInt8.ofNat (n % 256)).toNat = n % 256 := by
      rw [UInt8.toNat_ofNat']
      exact Nat.mod_mod n 256
    rw [littleEndian, ofLittleEndian, hrest, hbyte]
    omega

end BfMultiplayer.CLayout

import Mathlib.Tactic.Common
import Mathlib.Data.List.Basic
import Mathlib.Algebra.Order.Ring.Nat

/-!
# Reading a shared value part by part

A reader takes the parts of a value one after the other while writers replace
the value. What it has taken is a snapshot of the present value as long as
every write leaves the parts taken so far as they are; a write may change all
the others. Consecutive parts of one length make up the list they are taken
from.
-/

namespace BfMultiplayer.SnapshotReads

variable {σ β α : Type*} {part : σ → ℕ → Option β} {value next : σ} {taken : List β}

/-- What was taken so far are the first parts of the present value. -/
def Current (part : σ → ℕ → Option β) (value : σ) (taken : List β) : Prop :=
  ∀ i b, taken[i]? = some b → part value i = some b

/-- Nothing is taken at first. -/
theorem current_nil (value : σ) : Current part value [] := by
  intro i b h
  rw [List.getElem?_nil] at h
  cases h

/-- The reader takes the next part. -/
theorem Current.take (h : Current part value taken) {b : β}
    (hpart : part value taken.length = some b) : Current part value (taken ++ [b]) := by
  intro i c hi
  have hlt : i < taken.length + 1 := by
    have hlen := (List.getElem?_eq_some_iff.mp hi).1
    rwa [List.length_append, List.length_singleton] at hlen
  by_cases hlast : i = taken.length
  · rw [hlast, List.getElem?_concat_length, Option.some.injEq] at hi
    rw [hlast, ← hi]
    exact hpart
  · rw [List.getElem?_append_left (by omega)] at hi
    exact h i c hi

/-- A write that leaves the parts taken so far keeps them current. -/
theorem Current.write (h : Current part value taken)
    (hsame : ∀ i < taken.length, part next i = part value i) : Current part next taken := by
  intro i b hi
  have hlt : i < taken.length := (List.getElem?_eq_some_iff.mp hi).1
  rw [hsame i hlt]
  exact h i b hi

/-- When `n` parts were taken they are what a function of the index gives, if
it gives the present parts. -/
theorem Current.map_eq {γ : Type*} (h : Current part value taken) {n : ℕ} (hn : taken.length = n)
    {f : β → γ} {g : ℕ → γ} (hg : ∀ i < n, ∀ b, part value i = some b → f b = g i) :
    taken.map f = (List.range n).map g := by
  apply List.ext_getElem?
  intro i
  rw [List.getElem?_map, List.getElem?_map]
  by_cases hi : i < n
  · have hbound : i < taken.length := by omega
    have hb : taken[i]? = some taken[i] := List.getElem?_eq_getElem hbound
    rw [hb, List.getElem?_range hi, Option.map_some, Option.map_some]
    exact congrArg some (hg i hi _ (h i _ hb))
  · rw [List.getElem?_eq_none (by omega), List.getElem?_eq_none (by rw [List.length_range]; omega)]
    rfl

/-- The slice with number `i` of those of length `c` that a list is cut into. -/
def slice (l : List α) (c i : ℕ) : List α := (l.drop (c * i)).take c

/-- The first `n` slices make up the beginning of the list. -/
theorem flatten_slices (l : List α) (c n : ℕ) :
    ((List.range n).map (slice l c)).flatten = l.take (c * n) := by
  induction n with
  | zero => rw [List.range_zero, List.map_nil, List.flatten_nil, Nat.mul_zero, List.take_zero]
  | succ n ih =>
    rw [List.range_succ, List.map_append, List.flatten_append, ih, List.map_singleton,
      List.flatten_singleton, slice, Nat.mul_succ, List.take_add]

/-- Slices enough for the whole list make up the list. -/
theorem flatten_slices_of_length_le {l : List α} {c n : ℕ} (h : l.length ≤ c * n) :
    ((List.range n).map (slice l c)).flatten = l := by
  rw [flatten_slices, List.take_of_length_le h]

end BfMultiplayer.SnapshotReads

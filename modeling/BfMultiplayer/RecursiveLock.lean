import Mathlib.Tactic.Common

/-!
# A recursive lock

A lock is held by at most one thread, as many times as the thread has acquired it
and not yet released. The rules say how often each thread holds it before and
after a step; that no two threads hold it at once is derived from them.
-/

namespace BfMultiplayer.RecursiveLock

variable {τ : Type*}

/-- The thread that holds the lock, and how often. -/
structure Lock (τ : Type*) where
  /-- The thread. -/
  owner : Option τ
  /-- How often it has acquired the lock and not released it. -/
  depth : ℕ

/-- A lock that nobody holds. -/
def Lock.free : Lock τ := ⟨none, 0⟩

variable [DecidableEq τ]

/-- How often a thread holds the lock. -/
def Lock.holds (l : Lock τ) (thread : τ) : ℕ := if l.owner = some thread then l.depth else 0

/-- Acquire the lock; undefined while another thread holds it. -/
def Lock.acquire (l : Lock τ) (thread : τ) : Option (Lock τ) :=
  match l.owner with
  | none => some ⟨some thread, 1⟩
  | some holder => if holder = thread then some ⟨some thread, l.depth + 1⟩ else none

/-- Release the lock once. -/
def Lock.release (l : Lock τ) : Lock τ := if l.depth ≤ 1 then .free else ⟨l.owner, l.depth - 1⟩

/-- Nobody holds a free lock. -/
@[simp] theorem holds_free (thread : τ) : Lock.free.holds thread = 0 := by
  simp [Lock.free, Lock.holds]

/-- At most one thread holds the lock. -/
theorem holds_exclusive {l : Lock τ} {thread other : τ} (h : 0 < l.holds thread)
    (hne : other ≠ thread) : l.holds other = 0 := by
  have howner : l.owner = some thread := by
    by_contra hnot
    rw [Lock.holds, if_neg hnot] at h
    omega
  refine if_neg fun hother => hne ?_
  rw [howner, Option.some.injEq] at hother
  exact hother.symm

/-- The acquiring thread holds the lock once more, and all others as before. -/
theorem holds_acquire {l l' : Lock τ} {thread : τ} (h : l.acquire thread = some l') :
    l'.holds thread = l.holds thread + 1 ∧
      ∀ other, other ≠ thread → l'.holds other = l.holds other := by
  unfold Lock.acquire at h
  split at h
  · rename_i hfree
    cases h
    refine ⟨by simp [Lock.holds, hfree], fun other hne => ?_⟩
    have hnot : some thread ≠ some other := fun he => hne (Option.some.inj he).symm
    simp [Lock.holds, hfree, hnot]
  · rename_i holder howner
    split at h
    · rename_i hsame
      cases h
      refine ⟨by simp [Lock.holds, howner, hsame], fun other hne => ?_⟩
      have hnot : some thread ≠ some other := fun he => hne (Option.some.inj he).symm
      simp [Lock.holds, howner, hsame, hnot]
    · cases h

/-- A thread that holds the lock and releases it holds it once less, and all
others as before. -/
theorem holds_release {l : Lock τ} {thread : τ} (h : 0 < l.holds thread) :
    l.release.holds thread + 1 = l.holds thread ∧
      ∀ other, other ≠ thread → l.release.holds other = l.holds other := by
  have howner : l.owner = some thread := by
    by_contra hnot
    rw [Lock.holds, if_neg hnot] at h
    omega
  have hdepth : l.holds thread = l.depth := if_pos howner
  unfold Lock.release
  split
  · refine ⟨by rw [holds_free]; omega, fun other hne => ?_⟩
    rw [holds_free, holds_exclusive h hne]
  · refine ⟨?_, fun other hne => ?_⟩
    · have hless : Lock.holds ⟨l.owner, l.depth - 1⟩ thread = l.depth - 1 := if_pos howner
      omega
    · have hnot : l.owner ≠ some other := by
        rw [howner]
        exact fun he => hne (Option.some.inj he).symm
      rw [Lock.holds, Lock.holds, if_neg hnot, if_neg hnot]

end BfMultiplayer.RecursiveLock

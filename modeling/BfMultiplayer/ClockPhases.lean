import BfMultiplayer.ClockMapParts
import Mathlib.Data.List.Basic

/-!
# The phases of a platform on the synchronised clock

Both functions of the clock compare with `<=`, so that the first frame behind
a phase still belongs to it: `Wait` takes a frame more than `mWaitTime`, and
the last phase of the cycle a frame less. The progress into `Wait` is always
`mWaitTime`, and that of the other phases starts at one.
-/

namespace BfMultiplayer.ClockPhases

open BfMultiplayer.ClockMapParts

/-- The clock is at the first frame of a cycle, and a `float` holds all the frames of it. -/
structure StartsCycle (c : Config) (start : UInt64) (cycle : ℕ) : Prop where
  /-- `mWaitTime` is a number of frames. -/
  wait_nonneg : 0 ≤ c.mWaitTime
  /-- `mRotateSignTime` is a number of frames. -/
  sign_nonneg : 0 ≤ c.mRotateSignTime
  /-- `mRotateTime` is a number of frames. -/
  rotate_nonneg : 0 ≤ c.mRotateTime
  /-- The clock with the delay has run whole cycles. -/
  clock_start : (c.clock start : ℤ) = cycle * c.getTotalCycleTime
  /-- The frames of the cycle lie below 2 to the 24. -/
  exact_floats : (cycle + 1) * c.getTotalCycleTime ≤ 2 ^ 24

/-- The frames of a cycle, in their order. -/
def cycleFrames (c : Config) (start : UInt64) : List UInt64 :=
  (List.range c.getTotalCycleTime.toNat).map fun k => start + UInt64.ofNat k

/-- What `getCurrentNerveByClock` selects in the frames of a cycle. -/
def cycleNerves (c : Config) (start : UInt64) : List Nerve :=
  (cycleFrames c start).map c.getCurrentNerveByClock

/-- What `getProgressIntoNrvByClock` returns in the frames of a cycle. -/
def cycleProgress (c : Config) (start : UInt64) : List ℤ :=
  (cycleFrames c start).map c.getProgressIntoNrvByClock

/-- The frames since a phase of this length began. -/
def phaseProgress (length : ℤ) : List ℤ := (List.range length.toNat).map fun k : ℕ => (k : ℤ)

/-- The nerves of a cycle whose phases have the configured lengths. -/
def configuredNerves (c : Config) : List Nerve :=
  List.replicate c.mWaitTime.toNat .Wait ++ List.replicate c.mRotateSignTime.toNat .RotateSign ++
    List.replicate c.mRotateTime.toNat .Rotate

/-- The progress of a cycle whose phases have the configured lengths. -/
def configuredProgress (c : Config) : List ℤ :=
  phaseProgress c.mWaitTime ++ phaseProgress c.mRotateSignTime ++ phaseProgress c.mRotateTime

/-- The phases of a cycle have their lengths, and the progress counts their frames. -/
def HasConfiguredPhases (c : Config) (start : UInt64) : Prop :=
  cycleNerves c start = configuredNerves c ∧ cycleProgress c start = configuredProgress c

/-- The frames that `Wait` has. -/
def waitFrames (c : Config) : ℕ := min (c.mWaitTime.toNat + 1) c.getTotalCycleTime.toNat

/-- The frames that `RotateSign` has. -/
def signFrames (c : Config) : ℕ :=
  min c.mRotateSignTime.toNat (c.getTotalCycleTime.toNat - waitFrames c)

/-- The frames that `Rotate` has. -/
def rotateFrames (c : Config) : ℕ := c.getTotalCycleTime.toNat - waitFrames c - signFrames c

/-- In the frame `k` of a cycle the clock is `k` frames into it. -/
theorem timeIn_start_add {c : Config} {start : UInt64} {cycle k : ℕ}
    (h : StartsCycle c start cycle) (hk : k < c.getTotalCycleTime.toNat) :
    c.timeIn (start + UInt64.ofNat k) = k := by
  have hpos : 0 < c.getTotalCycleTime := by
    have hcycle := c.cycle_pos
    rw [Config.getTotalCycleTime]
    exact hcycle
  have hin : (k : ℤ) < c.getTotalCycleTime := by omega
  have hend := h.exact_floats
  have hstart := h.clock_start
  have hclock : c.clock (start + UInt64.ofNat k) = c.clock start + k := by
    have hmod : k % 2 ^ 64 = k := Nat.mod_eq_of_lt (by nlinarith)
    have hsum : start + UInt64.ofNat k + UInt64.ofInt c.mDelayTime =
        start + UInt64.ofInt c.mDelayTime + UInt64.ofNat k := by
      rw [UInt64.add_assoc, UInt64.add_comm (UInt64.ofNat k), ← UInt64.add_assoc]
    rw [Config.clock, hsum, UInt64.toNat_add, UInt64.toNat_ofNat', hmod, ← Config.clock]
    apply Nat.mod_eq_of_lt
    have hbound : (c.clock start : ℤ) + k < 2 ^ 64 := by nlinarith
    omega
  have hwhole : c.clock (start + UInt64.ofNat k) ≤ 2 ^ 24 := by
    have hbound : (c.clock start : ℤ) + k ≤ 2 ^ 24 := by nlinarith
    omega
  have htotal : c.getTotalCycleTime ≤ 2 ^ 24 := by nlinarith
  rw [Config.timeIn_eq_emod hwhole htotal, hclock]
  push_cast
  rw [hstart, Int.add_comm, Int.add_mul_emod_self_right]
  exact Int.emod_eq_of_lt (Int.natCast_nonneg k) hin

/-- The frames of a cycle are split among the three phases. -/
theorem frames_split (c : Config) :
    c.getTotalCycleTime.toNat = waitFrames c + signFrames c + rotateFrames c := by
  unfold rotateFrames signFrames waitFrames
  omega

/-- What is computed from the time into the cycle, phase by phase. -/
theorem map_cycleFrames {α : Type} {c : Config} {start : UInt64} {cycle : ℕ}
    (h : StartsCycle c start cycle) {f : UInt64 → α} {g : ℤ → α}
    (hf : ∀ frames, f frames = g (c.timeIn frames)) :
    (cycleFrames c start).map f =
      (List.range (waitFrames c)).map (fun k : ℕ => g (k : ℤ)) ++
        (List.range (signFrames c)).map (fun k : ℕ => g ((waitFrames c + k : ℕ) : ℤ)) ++
        (List.range (rotateFrames c)).map
          (fun k : ℕ => g ((waitFrames c + signFrames c + k : ℕ) : ℤ)) := by
  have hframes : (cycleFrames c start).map f =
      (List.range c.getTotalCycleTime.toNat).map fun k : ℕ => g (k : ℤ) := by
    rw [cycleFrames, List.map_map]
    apply List.map_congr_left
    intro k hk
    rw [Function.comp_apply, hf, timeIn_start_add h (List.mem_range.mp hk)]
  rw [hframes, frames_split, List.range_add, List.range_add, List.map_append, List.map_append,
    List.map_map, List.map_map]
  rfl

/-- A phase in which the computed value stays the same. -/
theorem map_range_const {α : Type} {n : ℕ} {f : ℕ → α} {value : α} (h : ∀ k < n, f k = value) :
    (List.range n).map f = List.replicate n value := by
  rw [List.eq_replicate_iff]
  refine ⟨by rw [List.length_map, List.length_range], ?_⟩
  intro x hx
  obtain ⟨k, hk, rfl⟩ := List.mem_map.mp hx
  exact h k (List.mem_range.mp hk)

/-- The nerves of a cycle: `Wait` has a frame more than its length, `RotateSign` its own as far
as the cycle lasts, and `Rotate` the rest. -/
theorem cycleNerves_eq {c : Config} {start : UInt64} {cycle : ℕ} (h : StartsCycle c start cycle) :
    cycleNerves c start =
      List.replicate (waitFrames c) .Wait ++ List.replicate (signFrames c) .RotateSign ++
        List.replicate (rotateFrames c) .Rotate := by
  have hw := h.wait_nonneg
  have hs := h.sign_nonneg
  have hr := h.rotate_nonneg
  rw [cycleNerves, map_cycleFrames h (f := c.getCurrentNerveByClock) (g := fun time =>
    if time ≤ c.mWaitTime then .Wait
    else if time ≤ c.mWaitTime + c.mRotateSignTime then .RotateSign else .Rotate) fun _ => rfl]
  unfold rotateFrames signFrames waitFrames Config.getTotalCycleTime
  congr 1
  · congr 1
    · apply map_range_const
      intro k hk
      rw [if_pos (by omega)]
    · apply map_range_const
      intro k hk
      rw [if_neg (by omega), if_pos (by omega)]
  · apply map_range_const
    intro k hk
    rw [if_neg (by omega), if_neg (by omega)]

/-- The progress of a cycle: that into `Wait` never moves, the others start at one. -/
theorem cycleProgress_eq {c : Config} {start : UInt64} {cycle : ℕ}
    (h : StartsCycle c start cycle) :
    cycleProgress c start =
      List.replicate (waitFrames c) c.mWaitTime ++
        (List.range (signFrames c)).map (fun k : ℕ => (k : ℤ) + 1) ++
        (List.range (rotateFrames c)).map (fun k : ℕ => (k : ℤ) + 1) := by
  have hw := h.wait_nonneg
  have hs := h.sign_nonneg
  have hr := h.rotate_nonneg
  rw [cycleProgress, map_cycleFrames h (f := c.getProgressIntoNrvByClock) (g := fun time =>
    if time ≤ c.mWaitTime then c.mWaitTime
    else if time ≤ c.mWaitTime + c.mRotateSignTime then time - c.mWaitTime
    else time - c.mWaitTime - c.mRotateSignTime) fun _ => rfl]
  unfold rotateFrames signFrames waitFrames Config.getTotalCycleTime
  congr 1
  · congr 1
    · apply map_range_const
      intro k hk
      rw [if_pos (by omega)]
    · apply List.map_congr_left
      intro k hk
      have hlt := List.mem_range.mp hk
      rw [if_neg (by omega), if_pos (by omega)]
      omega
  · apply List.map_congr_left
    intro k hk
    have hlt := List.mem_range.mp hk
    rw [if_neg (by omega), if_neg (by omega)]
    omega

/-- `Wait` has the configured number of frames only when nothing follows it. -/
theorem no_other_phase {c : Config} {start : UInt64} {cycle : ℕ} (h : StartsCycle c start cycle)
    (hnerves : cycleNerves c start = configuredNerves c) :
    c.mRotateSignTime = 0 ∧ c.mRotateTime = 0 := by
  have hw := h.wait_nonneg
  have hs := h.sign_nonneg
  have hr := h.rotate_nonneg
  have hcount := congrArg (List.count Nerve.Wait) hnerves
  rw [cycleNerves_eq h, configuredNerves] at hcount
  simp only [List.count_append, List.count_replicate, beq_self_eq_true, if_true, reduceCtorEq,
    beq_iff_eq, if_false, Nat.add_zero, waitFrames, Config.getTotalCycleTime] at hcount
  omega

/-- The phases of no cycle are as configured: `Wait` is too long as soon as anything follows it,
and when nothing does, its progress does not count its frames. -/
theorem phases_not_as_configured (c : Config) (start : UInt64) (cycle : ℕ)
    (h : StartsCycle c start cycle) : ¬HasConfiguredPhases c start := by
  rintro ⟨hnerves, hprogress⟩
  obtain ⟨hsign, hrotate⟩ := no_other_phase h hnerves
  have hpos : 0 < c.mWaitTime := by
    have hcycle := c.cycle_pos
    omega
  have hfirst := congrArg List.head? hprogress
  have hframes : waitFrames c = c.mWaitTime.toNat - 1 + 1 := by
    unfold waitFrames Config.getTotalCycleTime
    omega
  have hlength : c.mWaitTime.toNat = c.mWaitTime.toNat - 1 + 1 := by omega
  rw [cycleProgress_eq h, configuredProgress, phaseProgress, hframes, hlength,
    List.replicate_succ, List.range_succ_eq_map] at hfirst
  simp only [List.cons_append, List.head?_cons, List.map_cons, Option.some.injEq] at hfirst
  omega

/-- Two frames of `Wait`, one of `RotateSign` and three of `Rotate`. -/
def shortPlatform : Config := ⟨90, 3, 1, 0, 2, by decide⟩

/-- The second cycle of a short platform starts at its seventh frame. -/
theorem shortPlatform_starts : StartsCycle shortPlatform 6 1 :=
  ⟨by decide, by decide, by decide, by decide, by decide⟩

/-- The second cycle of a short platform is not as configured. -/
theorem shortPlatform_not_as_configured : ¬HasConfiguredPhases shortPlatform 6 :=
  phases_not_as_configured shortPlatform 6 1 shortPlatform_starts

/-- A short platform waits for three frames and rotates for two. -/
theorem shortPlatform_phases :
    cycleNerves shortPlatform 6 = [.Wait, .Wait, .Wait, .RotateSign, .Rotate, .Rotate] ∧
      cycleProgress shortPlatform 6 = [2, 2, 2, 1, 1, 2] ∧
      ¬HasConfiguredPhases shortPlatform 6 := by
  unfold HasConfiguredPhases
  decide +kernel

end BfMultiplayer.ClockPhases

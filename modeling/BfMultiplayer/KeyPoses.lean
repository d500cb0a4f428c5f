import BfMultiplayer.FloatRounding
import Mathlib.Algebra.Order.BigOperators.Group.Finset
import Mathlib.Data.UInt

/-!
# Key poses on the synchronised clock

The lengths of the key poses partition the cycle of a `KeyMoveMapPartsNet`:
the clock lies in exactly one of them, and the loop returns it. The quotient
in `control` stays below one, but a `float` can round it up to one where a
move takes more than 2 to the 24 frames.
-/

namespace BfMultiplayer.KeyPoses

open FloatRounding

/-- An `al::KeyPose`, as far as it is read. -/
structure KeyPose where
  /-- `WaitTime` of the placement info, where it has one. -/
  waitTime : Option ℤ
  deriving DecidableEq

/-- `waitTime` behind `tryGetIntByKey`. -/
def KeyPose.getWaitTime (pose : KeyPose) : ℤ := pose.waitTime.getD 0

/-- An `al::KeyPoseKeeper`. -/
structure KeyPoseKeeper where
  /-- `mKeyPoses`, of `mKeyPoseAmount` elements. -/
  mKeyPoses : List KeyPose
  /-- `mCurrentKeyPoseIdx`. -/
  mCurrentKeyPoseIdx : ℕ
  deriving DecidableEq

/-- `getKeyPose`. Behind the array there is no pose to be read. -/
def KeyPoseKeeper.getKeyPose (keeper : KeyPoseKeeper) (idx : ℕ) : Option KeyPose :=
  keeper.mKeyPoses[idx]?

/-- `getCurrentKeyPose`. -/
def KeyPoseKeeper.getCurrentKeyPose (keeper : KeyPoseKeeper) : Option KeyPose :=
  keeper.getKeyPose keeper.mCurrentKeyPoseIdx

/-- `setCurrentIdx`. -/
def KeyPoseKeeper.setCurrentIdx (keeper : KeyPoseKeeper) (idx : ℕ) : KeyPoseKeeper :=
  { keeper with mCurrentKeyPoseIdx := idx }

/-- `getKeyPoseCount`. -/
def KeyPoseKeeper.getKeyPoseCount (keeper : KeyPoseKeeper) : ℕ := keeper.mKeyPoses.length

section MoveTime

-- `calcKeyMoveMoveTime` of the game, at a current index
variable (moveTime : ℕ → ℤ)

/-- `calcKeyPoseFrames`. The current index is replaced and put back. -/
def calcKeyPoseFrames (idx : ℕ) (keeper : KeyPoseKeeper) : Option (ℤ × KeyPoseKeeper) := do
  let pose ← keeper.getKeyPose idx
  let waitTime := pose.getWaitTime
  let old := keeper.mCurrentKeyPoseIdx
  let keeper := keeper.setCurrentIdx idx
  let time := moveTime keeper.mCurrentKeyPoseIdx
  let keeper := keeper.setCurrentIdx old
  return (waitTime + time, keeper)

/-- The loop of `calcKeyPoseFramesTotal`, with the rounds that are left. -/
def totalLoop : ℕ → ℕ → ℤ → KeyPoseKeeper → Option (ℤ × KeyPoseKeeper)
  | 0, _, sum, keeper => some (sum, keeper)
  | rounds + 1, i, sum, keeper => do
    let (frames, keeper) ← calcKeyPoseFrames moveTime i keeper
    totalLoop rounds (i + 1) (sum + frames) keeper

/-- `calcKeyPoseFramesTotal`. -/
def calcKeyPoseFramesTotal (keeper : KeyPoseKeeper) : Option (ℤ × KeyPoseKeeper) :=
  totalLoop moveTime keeper.getKeyPoseCount 0 0 keeper

/-- The clock modulo the total as an `int`. The total is converted to a `u64` before. -/
def clockFrames (clock : UInt64) (total : ℤ) : Option ℤ :=
  if total = 0 then none
  else some (((clock % UInt64.ofInt total).toNat : ℤ).bmod (2 ^ 32))

/-- The loop of `calcCurKeyPoseIdxBySyncClock`, with the rounds that are left. It returns the
index and what `framesIntoPose` points at, or nothing when it runs to its end. -/
def searchLoop (frames : ℤ) (framesIntoPose : Option ℤ) :
    ℕ → ℕ → ℤ → KeyPoseKeeper → Option (Option (ℕ × Option ℤ) × KeyPoseKeeper)
  | 0, _, _, keeper => some (none, keeper)
  | rounds + 1, i, sum, keeper => do
    let (length, keeper) ← calcKeyPoseFrames moveTime i keeper
    if sum ≤ frames ∧ frames < sum + length then
      some (some (i, framesIntoPose.map fun _ => frames - sum), keeper)
    else searchLoop frames framesIntoPose rounds (i + 1) (sum + length) keeper

/-- What `calcCurKeyPoseIdxBySyncClock` returns. -/
structure CurKeyPose where
  /-- The index. -/
  idx : ℕ
  /-- What `framesIntoPose` points at, unless it is null. -/
  framesIntoPose : Option ℤ
  /-- The loop has returned. -/
  insideLoop : Bool
  deriving DecidableEq

/-- `calcCurKeyPoseIdxBySyncClock`. -/
def calcCurKeyPoseIdxBySyncClock (clock : UInt64) (framesIntoPose : Option ℤ)
    (keeper : KeyPoseKeeper) : Option (CurKeyPose × KeyPoseKeeper) := do
  let (total, keeper) ← calcKeyPoseFramesTotal moveTime keeper
  let frames ← clockFrames clock total
  let (found, keeper) ←
    searchLoop moveTime frames framesIntoPose keeper.getKeyPoseCount 0 0 keeper
  match found with
  | some (i, into) => return (⟨i, into, true⟩, keeper)
  | none => return (⟨0, framesIntoPose, false⟩, keeper)

/-- The local variables of `control`. -/
structure ControlFrame where
  /-- `framesIntoPose`. -/
  framesIntoPose : ℤ
  /-- `curKeyPoseLen`. -/
  curKeyPoseLen : ℤ
  /-- `waitTime`. -/
  waitTime : ℤ
  deriving DecidableEq

/-- The divisor of the progress, as a `float`. -/
def ControlFrame.divisor (frame : ControlFrame) : ℚ :=
  toFloat ((frame.curKeyPoseLen - frame.waitTime : ℤ) : ℚ)

/-- `progress`, of which every operation is rounded. -/
def ControlFrame.progress (frame : ControlFrame) : ℚ :=
  if frame.framesIntoPose ≤ frame.waitTime then 0
  else toFloat (toFloat ((frame.framesIntoPose - frame.waitTime : ℤ) : ℚ) / frame.divisor)

/-- The progress without rounding. -/
def ControlFrame.exactProgress (frame : ControlFrame) : ℚ :=
  if frame.framesIntoPose ≤ frame.waitTime then 0
  else ((frame.framesIntoPose - frame.waitTime : ℤ) : ℚ) /
    ((frame.curKeyPoseLen - frame.waitTime : ℤ) : ℚ)

/-- `control`, up to the pose that it sets from its variables. -/
def control (clock : UInt64) (keeper : KeyPoseKeeper) : Option (ControlFrame × KeyPoseKeeper) := do
  let (cur, keeper) ← calcCurKeyPoseIdxBySyncClock moveTime clock (some 0) keeper
  let (curKeyPoseLen, keeper) ← calcKeyPoseFrames moveTime cur.idx keeper
  let keeper := keeper.setCurrentIdx cur.idx
  let pose ← keeper.getCurrentKeyPose
  return (⟨cur.framesIntoPose.getD 0, curKeyPoseLen, pose.getWaitTime⟩, keeper)

/-- The wait time of a key pose. -/
def waitOf (keeper : KeyPoseKeeper) (i : ℕ) : ℤ :=
  ((keeper.getKeyPose i).map KeyPose.getWaitTime).getD 0

/-- The length of a key pose. -/
def lengthOf (keeper : KeyPoseKeeper) (i : ℕ) : ℤ := waitOf keeper i + moveTime i

/-- The lengths of the key poses in front of one. -/
def lengthsBefore (keeper : KeyPoseKeeper) (i : ℕ) : ℤ :=
  ∑ j ∈ Finset.range i, lengthOf moveTime keeper j

/-- The length of the cycle. -/
def cycleLength (keeper : KeyPoseKeeper) : ℤ :=
  lengthsBefore moveTime keeper keeper.getKeyPoseCount

/-- A key pose has a time of the cycle in it. -/
def HasTime (keeper : KeyPoseKeeper) (time : ℤ) (i : ℕ) : Prop :=
  i < keeper.getKeyPoseCount ∧ lengthsBefore moveTime keeper i ≤ time ∧
    time < lengthsBefore moveTime keeper (i + 1)

/-- The times of the key poses. -/
structure WellTimed (keeper : KeyPoseKeeper) : Prop where
  /-- No wait time is negative. -/
  wait_nonneg : ∀ i, 0 ≤ waitOf keeper i
  /-- No move time is negative. -/
  move_nonneg : ∀ i, 0 ≤ moveTime i
  /-- The cycle takes some time. -/
  cycle_pos : 0 < cycleLength moveTime keeper
  /-- The total is an `int`. -/
  cycle_int : cycleLength moveTime keeper < 2 ^ 31

variable {moveTime}

/-- The frames of a key pose are its length, and the current index is as before. -/
theorem calcKeyPoseFrames_eq {keeper : KeyPoseKeeper} {i : ℕ} (h : i < keeper.getKeyPoseCount) :
    calcKeyPoseFrames moveTime i keeper = some (lengthOf moveTime keeper i, keeper) := by
  have hpose : keeper.getKeyPose i = some keeper.mKeyPoses[i] := List.getElem?_eq_getElem h
  rw [calcKeyPoseFrames, lengthOf, waitOf, hpose]
  rfl

/-- One more key pose in front. -/
theorem lengthsBefore_succ (keeper : KeyPoseKeeper) (i : ℕ) :
    lengthsBefore moveTime keeper (i + 1) =
      lengthsBefore moveTime keeper i + lengthOf moveTime keeper i :=
  Finset.sum_range_succ _ _

/-- No length is negative. -/
theorem WellTimed.length_nonneg {keeper : KeyPoseKeeper} (h : WellTimed moveTime keeper) (i : ℕ) :
    0 ≤ lengthOf moveTime keeper i :=
  add_nonneg (h.wait_nonneg i) (h.move_nonneg i)

/-- The lengths in front grow along the key poses. -/
theorem WellTimed.lengthsBefore_mono {keeper : KeyPoseKeeper} (h : WellTimed moveTime keeper)
    {i j : ℕ} (hle : i ≤ j) :
    lengthsBefore moveTime keeper i ≤ lengthsBefore moveTime keeper j := by
  induction hle with
  | refl => exact le_rfl
  | @step j _ ih =>
    have hlength := h.length_nonneg j
    rw [lengthsBefore_succ]
    omega

/-- The loop of the total adds the lengths that are left. -/
theorem totalLoop_eq {keeper : KeyPoseKeeper} {rounds i : ℕ}
    (h : i + rounds = keeper.getKeyPoseCount) :
    totalLoop moveTime rounds i (lengthsBefore moveTime keeper i) keeper =
      some (cycleLength moveTime keeper, keeper) := by
  induction rounds generalizing i with
  | zero =>
    rw [Nat.add_zero] at h
    rw [totalLoop, h, cycleLength]
  | succ rounds ih =>
    have hnext := ih (i := i + 1) (by omega)
    rw [lengthsBefore_succ] at hnext
    rw [totalLoop, calcKeyPoseFrames_eq (by omega)]
    exact hnext

/-- The total is the length of the cycle. -/
theorem calcKeyPoseFramesTotal_eq (keeper : KeyPoseKeeper) :
    calcKeyPoseFramesTotal moveTime keeper = some (cycleLength moveTime keeper, keeper) :=
  totalLoop_eq (Nat.zero_add _)

/-- The modulus by a positive `int` total is that of the numbers. -/
theorem clockFrames_eq {total : ℤ} (hpos : 0 < total) (hint : total < 2 ^ 31) (clock : UInt64) :
    clockFrames clock total = some ((clock.toNat : ℤ) % total) := by
  obtain ⟨n, rfl⟩ := Int.eq_ofNat_of_zero_le hpos.le
  have hsmall : n < 2 ^ 31 := by omega
  have htotal : (UInt64.ofInt (n : ℤ)).toNat = n := by
    rw [UInt64.ofInt, UInt64.toNat_ofNat']
    omega
  have hmod := Nat.mod_lt clock.toNat (by omega : 0 < n)
  rw [clockFrames, if_neg (by omega), UInt64.toNat_mod, htotal,
    Int.bmod_eq_of_le (by omega) (by omega)]
  push_cast
  rfl

/-- The loop returns the key pose that has the frames in it. -/
theorem searchLoop_eq {keeper : KeyPoseKeeper} {frames : ℤ} {rounds i : ℕ}
    (hcount : i + rounds = keeper.getKeyPoseCount)
    (hfrom : lengthsBefore moveTime keeper i ≤ frames)
    (hto : frames < cycleLength moveTime keeper) (framesIntoPose : Option ℤ) :
    ∃ k, HasTime moveTime keeper frames k ∧
      searchLoop moveTime frames framesIntoPose rounds i (lengthsBefore moveTime keeper i) keeper =
        some (some (k, framesIntoPose.map fun _ => frames - lengthsBefore moveTime keeper k),
          keeper) := by
  induction rounds generalizing i with
  | zero =>
    rw [Nat.add_zero] at hcount
    rw [cycleLength, ← hcount] at hto
    omega
  | succ rounds ih =>
    have hstep : searchLoop moveTime frames framesIntoPose (rounds + 1) i
        (lengthsBefore moveTime keeper i) keeper =
        if lengthsBefore moveTime keeper i ≤ frames ∧
            frames < lengthsBefore moveTime keeper (i + 1) then
          some (some (i, framesIntoPose.map fun _ => frames - lengthsBefore moveTime keeper i),
            keeper)
        else searchLoop moveTime frames framesIntoPose rounds (i + 1)
          (lengthsBefore moveTime keeper (i + 1)) keeper := by
      rw [lengthsBefore_succ, searchLoop, calcKeyPoseFrames_eq (by omega)]
      rfl
    rw [hstep]
    by_cases hin : frames < lengthsBefore moveTime keeper (i + 1)
    · rw [if_pos ⟨hfrom, hin⟩]
      exact ⟨i, ⟨by omega, hfrom, hin⟩, rfl⟩
    · rw [if_neg fun hboth => hin hboth.2]
      exact ih (by omega) (by omega)

/-- No two key poses have the same time in them. -/
theorem WellTimed.hasTime_unique {keeper : KeyPoseKeeper} (h : WellTimed moveTime keeper)
    {time : ℤ} {i j : ℕ} (hi : HasTime moveTime keeper time i)
    (hj : HasTime moveTime keeper time j) : j = i := by
  obtain ⟨-, hifrom, hito⟩ := hi
  obtain ⟨-, hjfrom, hjto⟩ := hj
  rcases Nat.lt_trichotomy j i with hlt | heq | hgt
  · have hmono : lengthsBefore moveTime keeper (j + 1) ≤ lengthsBefore moveTime keeper i :=
      h.lengthsBefore_mono hlt
    omega
  · exact heq
  · have hmono : lengthsBefore moveTime keeper (i + 1) ≤ lengthsBefore moveTime keeper j :=
      h.lengthsBefore_mono hgt
    omega

/-- The function returns from its loop with the key pose that has the clock in it. -/
theorem WellTimed.calcCurKeyPoseIdxBySyncClock_eq {keeper : KeyPoseKeeper}
    (h : WellTimed moveTime keeper) (clock : UInt64) :
    ∃ i, HasTime moveTime keeper ((clock.toNat : ℤ) % cycleLength moveTime keeper) i ∧
      ∀ framesIntoPose, calcCurKeyPoseIdxBySyncClock moveTime clock framesIntoPose keeper =
        some (⟨i, framesIntoPose.map fun _ =>
          (clock.toNat : ℤ) % cycleLength moveTime keeper - lengthsBefore moveTime keeper i,
          true⟩, keeper) := by
  have hfrom : lengthsBefore moveTime keeper 0 ≤
      (clock.toNat : ℤ) % cycleLength moveTime keeper := by
    rw [lengthsBefore, Finset.sum_range_zero]
    exact Int.emod_nonneg _ h.cycle_pos.ne'
  have hto := Int.emod_lt_of_pos (clock.toNat : ℤ) h.cycle_pos
  obtain ⟨i, hi, -⟩ := searchLoop_eq (Nat.zero_add _) hfrom hto none
  refine ⟨i, hi, fun framesIntoPose => ?_⟩
  obtain ⟨k, hk, hloop⟩ := searchLoop_eq (Nat.zero_add _) hfrom hto framesIntoPose
  have hsame : i = k := h.hasTime_unique hk hi
  rw [lengthsBefore, Finset.sum_range_zero] at hloop
  rw [calcCurKeyPoseIdxBySyncClock, calcKeyPoseFramesTotal_eq, hsame]
  simp only [Option.bind_eq_bind, Option.bind_some, clockFrames_eq h.cycle_pos h.cycle_int]
  rw [hloop]
  rfl

/-- `control` takes the progress into the key pose that has the clock in it, which is the current
one behind it. -/
theorem WellTimed.control_eq {keeper : KeyPoseKeeper} (h : WellTimed moveTime keeper)
    {clock : UInt64} {i : ℕ}
    (hi : HasTime moveTime keeper ((clock.toNat : ℤ) % cycleLength moveTime keeper) i) :
    control moveTime clock keeper =
      some (⟨(clock.toNat : ℤ) % cycleLength moveTime keeper - lengthsBefore moveTime keeper i,
        lengthOf moveTime keeper i, waitOf keeper i⟩, keeper.setCurrentIdx i) := by
  obtain ⟨k, hk, hcur⟩ := h.calcCurKeyPoseIdxBySyncClock_eq clock
  have hsame : i = k := h.hasTime_unique hk hi
  subst hsame
  have hindex : i < keeper.mKeyPoses.length := hi.1
  have hpose : keeper.getKeyPose i = some keeper.mKeyPoses[i] := List.getElem?_eq_getElem hi.1
  have hcurrent : (keeper.setCurrentIdx i).getCurrentKeyPose = some keeper.mKeyPoses[i] := hpose
  rw [control, hcur]
  simp only [Option.bind_eq_bind, Option.bind_some, calcKeyPoseFrames_eq hi.1, hcurrent]
  rw [waitOf, hpose]
  rfl

/-- The progress of a frame that lies in its key pose. -/
structure GoodProgress (frame : ControlFrame) : Prop where
  /-- The divisor is positive when it is used. -/
  divisor_pos : frame.waitTime < frame.framesIntoPose →
    0 < frame.curKeyPoseLen - frame.waitTime ∧ 0 < frame.divisor
  /-- The quotient is not negative. -/
  exact_nonneg : 0 ≤ frame.exactProgress
  /-- The quotient is below one. -/
  exact_lt_one : frame.exactProgress < 1
  /-- The `float` is not negative. -/
  float_nonneg : 0 ≤ frame.progress
  /-- The `float` is at most one. -/
  float_le_one : frame.progress ≤ 1
  /-- The `float` is below one when a `float` holds the move time. -/
  float_lt_one : frame.curKeyPoseLen - frame.waitTime ≤ 2 ^ 24 → frame.progress < 1

/-- A frame in the wait time has good progress. -/
theorem goodProgress_of_waiting {frame : ControlFrame} (h : frame.framesIntoPose ≤ frame.waitTime) :
    GoodProgress frame := by
  have hexact : frame.exactProgress = 0 := if_pos h
  have hfloat : frame.progress = 0 := if_pos h
  refine ⟨fun hmoving => by omega, hexact.ge, ?_, hfloat.ge, ?_, fun _ => ?_⟩
  · rw [hexact]
    exact one_pos
  · rw [hfloat]
    exact zero_le_one
  · rw [hfloat]
    exact one_pos

/-- A frame in the move time has good progress. -/
theorem goodProgress_of_moving {frame : ControlFrame} (hmoving : frame.waitTime <
    frame.framesIntoPose) (h : frame.framesIntoPose < frame.curKeyPoseLen) :
    GoodProgress frame := by
  have hexact : frame.exactProgress = ((frame.framesIntoPose - frame.waitTime : ℤ) : ℚ) /
      ((frame.curKeyPoseLen - frame.waitTime : ℤ) : ℚ) := if_neg hmoving.not_ge
  have hfloat : frame.progress =
      toFloat (toFloat ((frame.framesIntoPose - frame.waitTime : ℤ) : ℚ) /
        toFloat ((frame.curKeyPoseLen - frame.waitTime : ℤ) : ℚ)) := by
    rw [ControlFrame.progress, if_neg hmoving.not_ge, ControlFrame.divisor]
  have hmoved : (0 : ℚ) < ((frame.framesIntoPose - frame.waitTime : ℤ) : ℚ) :=
    Int.cast_pos.mpr (by omega)
  have hless : ((frame.framesIntoPose - frame.waitTime : ℤ) : ℚ) + 1 ≤
      ((frame.curKeyPoseLen - frame.waitTime : ℤ) : ℚ) := by
    exact_mod_cast (by omega : frame.framesIntoPose - frame.waitTime + 1 ≤
      frame.curKeyPoseLen - frame.waitTime)
  have hle : ((frame.framesIntoPose - frame.waitTime : ℤ) : ℚ) ≤
      ((frame.curKeyPoseLen - frame.waitTime : ℤ) : ℚ) := by linarith only [hless]
  obtain ⟨hquotient, hone⟩ := toFloat_quotient hmoved hle
  have hdivisor : 0 < frame.divisor := roundFloat_pos (by norm_num) (by linarith)
  refine ⟨fun _ => ⟨by omega, hdivisor⟩, ?_, ?_, ?_, ?_, fun hsmall => ?_⟩
  · rw [hexact]
    exact div_nonneg (by linarith) (by linarith)
  · rw [hexact, div_lt_one (by linarith)]
    linarith
  · rw [hfloat]
    exact (roundFloat_pos (by norm_num) hquotient).le
  · rw [hfloat]
    exact hone
  · have hbig : ((frame.curKeyPoseLen - frame.waitTime : ℤ) : ℚ) ≤ 2 ^ 24 := by
      exact_mod_cast hsmall
    rw [hfloat]
    apply toFloat_lt_one hquotient
    rw [toFloat_int (by omega) (by omega), toFloat_int (by omega) hsmall,
      div_le_iff₀ (by linarith)]
    linarith

/-- A frame that has not reached the end of its key pose has good progress. -/
theorem goodProgress_of_lt {frame : ControlFrame} (h : frame.framesIntoPose < frame.curKeyPoseLen) :
    GoodProgress frame := by
  rcases Int.lt_or_le frame.waitTime frame.framesIntoPose with hmoving | hwait
  · exact goodProgress_of_moving hmoving h
  · exact goodProgress_of_waiting hwait

/-- The key pose of the clock is the one that has it in it, the function returns it from inside
its loop and leaves the current index, and the progress into it is good. -/
theorem key_pose_of_clock {keeper : KeyPoseKeeper} (h : WellTimed moveTime keeper)
    (clock : UInt64) :
    ∃ i, HasTime moveTime keeper ((clock.toNat : ℤ) % cycleLength moveTime keeper) i ∧
      (∀ j, HasTime moveTime keeper ((clock.toNat : ℤ) % cycleLength moveTime keeper) j → j = i) ∧
      ∃ into, into = (clock.toNat : ℤ) % cycleLength moveTime keeper -
          lengthsBefore moveTime keeper i ∧
        0 ≤ into ∧ into < lengthOf moveTime keeper i ∧
        (∀ framesIntoPose, calcCurKeyPoseIdxBySyncClock moveTime clock framesIntoPose keeper =
          some (⟨i, framesIntoPose.map fun _ => into, true⟩, keeper)) ∧
        control moveTime clock keeper =
          some (⟨into, lengthOf moveTime keeper i, waitOf keeper i⟩, keeper.setCurrentIdx i) ∧
        GoodProgress ⟨into, lengthOf moveTime keeper i, waitOf keeper i⟩ := by
  obtain ⟨i, hi, hcur⟩ := h.calcCurKeyPoseIdxBySyncClock_eq clock
  have hto := hi.2.2
  rw [lengthsBefore_succ] at hto
  have hlt : (clock.toNat : ℤ) % cycleLength moveTime keeper - lengthsBefore moveTime keeper i <
      lengthOf moveTime keeper i := by omega
  have hfrom := hi.2.1
  exact ⟨i, hi, fun j hj => h.hasTime_unique hi hj, _, rfl, by omega, hlt, hcur, h.control_eq hi,
    goodProgress_of_lt hlt⟩

/-- The `float` is below one as long as a `float` holds the frames that were moved for. -/
theorem progress_lt_one_of_moved {frame : ControlFrame}
    (h : frame.framesIntoPose < frame.curKeyPoseLen)
    (hmoved : frame.framesIntoPose - frame.waitTime < 2 ^ 24) : frame.progress < 1 := by
  rcases Int.lt_or_le (2 ^ 24) (frame.curKeyPoseLen - frame.waitTime) with hlong | hsmall
  · rcases Int.lt_or_le frame.waitTime frame.framesIntoPose with hmoving | hwait
    · have hlength : ((2 ^ 24 : ℕ) : ℚ) ≤ ((frame.curKeyPoseLen - frame.waitTime : ℤ) : ℚ) := by
        exact_mod_cast hlong.le
      have hdivisor : ((2 ^ 24 : ℕ) : ℚ) ≤ frame.divisor :=
        natCast_le_roundFloat (by norm_num) le_rfl hlength
      have hframes : ((frame.framesIntoPose - frame.waitTime : ℤ) : ℚ) ≤ 2 ^ 24 - 1 := by
        exact_mod_cast (by omega : frame.framesIntoPose - frame.waitTime ≤ 2 ^ 24 - 1)
      have hpos : (0 : ℚ) < ((frame.framesIntoPose - frame.waitTime : ℤ) : ℚ) :=
        Int.cast_pos.mpr (by omega)
      push_cast at hdivisor
      rw [ControlFrame.progress, if_neg hmoving.not_ge, toFloat_int (by omega) hmoved.le]
      have hdivisorPos : 0 < frame.divisor := by linarith only [hdivisor]
      apply toFloat_lt_one (div_pos hpos hdivisorPos)
      rw [div_le_iff₀ hdivisorPos]
      linarith only [hdivisor, hframes]
    · rw [ControlFrame.progress, if_pos hwait]
      exact one_pos
  · exact (goodProgress_of_lt h).float_lt_one hsmall

/-- On a clock of `getSyncClockFrames`, which stays below 864000, the `float` is below one,
whatever the move times. -/
theorem progress_lt_one_of_clock {keeper keeper' : KeyPoseKeeper} (h : WellTimed moveTime keeper)
    {clock : UInt64} (hclock : clock.toNat < 864000) {frame : ControlFrame}
    (hcontrol : control moveTime clock keeper = some (frame, keeper')) : frame.progress < 1 := by
  obtain ⟨i, hi, -⟩ := h.calcCurKeyPoseIdxBySyncClock_eq clock
  cases (h.control_eq hi).symm.trans hcontrol
  have hto := hi.2.2
  rw [lengthsBefore_succ] at hto
  refine progress_lt_one_of_moved (by dsimp only; omega) ?_
  have hbefore : 0 ≤ lengthsBefore moveTime keeper i :=
    Finset.sum_nonneg fun j _ => h.length_nonneg j
  have hwait := h.wait_nonneg i
  have hmod : (clock.toNat : ℤ) % cycleLength moveTime keeper ≤ clock.toNat := by
    have hparts := Int.emod_add_mul_ediv (clock.toNat : ℤ) (cycleLength moveTime keeper)
    have hwhole := Int.mul_nonneg h.cycle_pos.le
      (Int.ediv_nonneg (Int.natCast_nonneg clock.toNat) h.cycle_pos.le)
    omega
  dsimp only
  omega

end MoveTime

/-- Two key poses, the first of which waits. -/
def twoPoses : KeyPoseKeeper := ⟨[⟨some 2⟩, ⟨none⟩], 1⟩

/-- The two key poses move for three and for no frames. -/
def twoMoves : ℕ → ℤ
  | 0 => 3
  | _ => 0

/-- The times of the two key poses. -/
theorem twoPoses_wellTimed : WellTimed twoMoves twoPoses := by
  refine ⟨fun i => ?_, fun i => ?_, by decide, by decide⟩
  · rcases i with _ | _ | i
    · decide
    · decide
    · exact le_rfl
  · rcases i with _ | i
    · decide
    · exact le_rfl

/-- At frame 13 the clock is three frames into the first of the two key poses. -/
theorem twoPoses_of_clock : ∃ i, HasTime twoMoves twoPoses 3 i := by
  obtain ⟨i, hi, -⟩ := key_pose_of_clock twoPoses_wellTimed 13
  exact ⟨i, hi⟩

/-- One key pose whose move takes a frame more than a `float` holds. -/
def longMove : KeyPoseKeeper := ⟨[⟨none⟩], 0⟩

/-- In the last frame of the long move the progress is rounded up to one. -/
theorem longMove_progress :
    WellTimed (fun _ => 2 ^ 24 + 1) longMove ∧
      ∃ frame, control (fun _ => 2 ^ 24 + 1) (2 ^ 24) longMove = some (frame, longMove) ∧
        frame.exactProgress = 2 ^ 24 / (2 ^ 24 + 1) ∧ frame.progress = 1 ∧
        ¬frame.progress < 1 := by
  refine ⟨⟨fun i => ?_, fun _ => by norm_num, by decide, by decide⟩,
    ⟨2 ^ 24, 2 ^ 24 + 1, 0⟩, by decide +kernel, by decide +kernel, by decide +kernel,
    by decide +kernel⟩
  cases i <;> exact le_rfl

end BfMultiplayer.KeyPoses

import BfMultiplayer.FloatRounding

/-!
# Platforms on the synchronised clock

A `ClockMapPartsNet` takes its nerve from the clock in every frame, but its
angle only while it rotates and when it stops. A client that joins while the
platform waits shows the angle that the stage was built with, whatever the
others see, until the platform rotates again.
-/

namespace BfMultiplayer.ClockMapParts

open BfMultiplayer.FloatRounding

/-- The nerves. -/
inductive Nerve where
  | Wait
  | RotateSign
  | Rotate
  deriving DecidableEq

/-- The configuration of a `ClockMapPartsNet` with a positive cycle time. -/
structure Config where
  /-- `mClockAngle`. -/
  mClockAngle : ℚ
  /-- `mRotateTime`. -/
  mRotateTime : ℤ
  /-- `mRotateSignTime`. -/
  mRotateSignTime : ℤ
  /-- `mDelayTime`. -/
  mDelayTime : ℤ
  /-- `mWaitTime`. -/
  mWaitTime : ℤ
  /-- The cycle takes some time. -/
  cycle_pos : 0 < mWaitTime + mRotateTime + mRotateSignTime

/-- `getTotalCycleTime`. -/
def Config.getTotalCycleTime (c : Config) : ℤ := c.mWaitTime + c.mRotateTime + c.mRotateSignTime

/-- `getSyncClockFrames() + mDelayTime`, in 64 bits. -/
def Config.clock (c : Config) (frames : UInt64) : ℕ :=
  (frames + UInt64.ofInt c.mDelayTime).toNat

/-- `fmodf` of the clock by the cycle time, both as `float`s, cut off at the point. -/
def Config.timeIn (c : Config) (frames : UInt64) : ℤ :=
  truncate (fmod (toFloat (c.clock frames)) (toFloat c.getTotalCycleTime))

/-- `getCurrentNerveByClock`. -/
def Config.getCurrentNerveByClock (c : Config) (frames : UInt64) : Nerve :=
  let time := c.timeIn frames
  if time ≤ c.mWaitTime then .Wait
  else if time ≤ c.mWaitTime + c.mRotateSignTime then .RotateSign
  else .Rotate

/-- `getProgressIntoNrvByClock`. -/
def Config.getProgressIntoNrvByClock (c : Config) (frames : UInt64) : ℤ :=
  let time := c.timeIn frames
  if time ≤ c.mWaitTime then c.mWaitTime
  else if time ≤ c.mWaitTime + c.mRotateSignTime then time - c.mWaitTime
  else time - c.mWaitTime - c.mRotateSignTime

/-- The number of the cycle, as the `int` it is cast to. -/
def Config.cycle (c : Config) (frames : UInt64) : ℤ :=
  (c.clock frames / c.getTotalCycleTime).bmod (2 ^ 32)

/-- The angle of `exeRotate`. -/
def Config.rotateDegrees (c : Config) (frames : UInt64) : ℚ :=
  fmod ((c.getProgressIntoNrvByClock frames : ℚ) / c.mRotateTime * c.mClockAngle +
    c.mClockAngle * c.cycle frames) 360

/-- The angle of `exeRotateEnd`. -/
def Config.rotateEndDegrees (c : Config) (frames : UInt64) : ℚ :=
  fmod (c.mClockAngle * c.cycle frames) 360

/-- A platform on one client. -/
structure ClockMapPartsNet where
  /-- The nerve. -/
  nerve : Nerve
  /-- The angle around `mRotateAxis` from `mInitialQuat`. -/
  degrees : ℚ
  deriving DecidableEq

/-- `init`. -/
def init : ClockMapPartsNet := ⟨.Wait, 0⟩

/-- `control`. The nerve that is replaced runs its end. -/
def control (c : Config) (frames : UInt64) (part : ClockMapPartsNet) : ClockMapPartsNet :=
  let nerve := c.getCurrentNerveByClock frames
  if part.nerve = nerve then part
  else
    { nerve := nerve
      degrees := if part.nerve = .Rotate then c.rotateEndDegrees frames else part.degrees }

/-- The current nerve: `exeWait`, `exeRotateSign` or `exeRotate`. -/
def exeNerve (c : Config) (frames : UInt64) (part : ClockMapPartsNet) : ClockMapPartsNet :=
  match part.nerve with
  | .Wait => part
  | .RotateSign => part
  | .Rotate => { part with degrees := c.rotateDegrees frames }

/-- A frame. -/
def movement (c : Config) (part : ClockMapPartsNet) (frames : UInt64) : ClockMapPartsNet :=
  exeNerve c frames (control c frames part)

/-- The platform of a client that has run it for some frames of the clock since it joined. -/
def partAfter (c : Config) (clock : ℕ → UInt64) (joined : ℕ) : ℕ → ClockMapPartsNet
  | 0 => init
  | k + 1 => movement c (partAfter c clock joined k) (clock (joined + k))

/-- Two angles show the same pose. -/
def SameAngle (x y : ℚ) : Prop := ∃ turns : ℤ, x - y = 360 * turns

/-- Of two clients, the second one `later` frames behind the first, both show the same pose
when the second one has run `ran` frames behind its first one. -/
def LookTheSame (c : Config) (clock : ℕ → UInt64) (joined later ran : ℕ) : Prop :=
  SameAngle (partAfter c clock joined (later + (ran + 1))).degrees
    (partAfter c clock (joined + later) (ran + 1)).degrees

/-- The platform rotates in a frame. -/
def Config.Rotates (c : Config) (frames : UInt64) : Prop :=
  c.getCurrentNerveByClock frames = .Rotate

/-- The condition on the clock: the platform has rotated since the second client joined, or it
has not rotated between the two joins, or it stopped last at whole turns. -/
def RotatedSince (c : Config) (clock : ℕ → UInt64) (joined later ran : ℕ) : Prop :=
  (∃ k ≤ ran, c.Rotates (clock (joined + later + k))) ∨
    (∀ k < later, ¬c.Rotates (clock (joined + k))) ∨
    ∃ last < later, c.Rotates (clock (joined + last)) ∧
      (∀ k < later, last < k → ¬c.Rotates (clock (joined + k))) ∧
      SameAngle (c.mClockAngle * c.cycle (clock (joined + last + 1))) 0

/-- Below 2 to the 24 the time is the remainder of the integers. -/
theorem Config.timeIn_eq_emod {c : Config} {frames : UInt64} (hclock : c.clock frames ≤ 2 ^ 24)
    (htotal : c.getTotalCycleTime ≤ 2 ^ 24) :
    c.timeIn frames = c.clock frames % c.getTotalCycleTime := by
  have hpos : 0 < c.getTotalCycleTime := c.cycle_pos
  obtain ⟨total, heq⟩ := Int.eq_ofNat_of_zero_le hpos.le
  rw [heq] at hpos htotal
  rw [Config.timeIn, heq, toFloat_int (Int.natCast_nonneg _) htotal, Int.cast_natCast,
    show (c.clock frames : ℚ) = ((c.clock frames : ℤ) : ℚ) from rfl,
    toFloat_int (Int.natCast_nonneg _) (by exact_mod_cast hclock), Int.cast_natCast,
    fmod_natCast _ (by omega)]
  exact truncate_int _

/-- A frame ends in the nerve of the clock. -/
theorem movement_nerve (c : Config) (part : ClockMapPartsNet) (frames : UInt64) :
    (movement c part frames).nerve = c.getCurrentNerveByClock frames := by
  have hcontrol : (control c frames part).nerve = c.getCurrentNerveByClock frames := by
    unfold control
    dsimp only
    split
    · assumption
    · rfl
  rw [movement, exeNerve, ← hcontrol]
  split <;> rfl

/-- A frame in which the platform rotates gives the pose of the clock. -/
theorem movement_of_rotates {c : Config} {frames : UInt64} (h : c.Rotates frames)
    (part : ClockMapPartsNet) : movement c part frames = ⟨.Rotate, c.rotateDegrees frames⟩ := by
  have hcontrol : (control c frames part).nerve = .Rotate := by
    unfold control
    dsimp only
    rw [h]
    split
    · assumption
    · rfl
  rw [movement, exeNerve, hcontrol]

/-- Any other frame gives a pose only when the platform stops. -/
theorem movement_of_not_rotates {c : Config} {frames : UInt64} (h : ¬c.Rotates frames)
    (part : ClockMapPartsNet) : (movement c part frames).degrees =
      if part.nerve = .Rotate then c.rotateEndDegrees frames else part.degrees := by
  have hcontrol : (control c frames part).degrees =
      if part.nerve = .Rotate then c.rotateEndDegrees frames else part.degrees := by
    unfold control
    dsimp only
    split
    · rename_i hsame
      have hnot : ¬part.nerve = .Rotate := fun hrotate => h (hsame.symm.trans hrotate)
      rw [if_neg hnot]
    · rfl
  have hnerve := movement_nerve c part frames
  rw [movement, exeNerve] at hnerve ⊢
  split at hnerve
  · rw [hcontrol]
  · rw [hcontrol]
  · rename_i hrotate
    exact absurd (hnerve.symm.trans hrotate) h

/-- Behind a frame in which the platform rotates, all clients that have run it agree. -/
theorem partAfter_eq_of_rotates {c : Config} {clock : ℕ → UInt64} {joined later ran k : ℕ}
    (hk : k < ran) (h : c.Rotates (clock (joined + later + k))) :
    partAfter c clock joined (later + ran) = partAfter c clock (joined + later) ran := by
  induction ran with
  | zero => cases hk
  | succ ran ih =>
    rw [← Nat.add_assoc, partAfter, partAfter, ← Nat.add_assoc]
    by_cases hlast : k = ran
    · rw [hlast] at h
      rw [movement_of_rotates h, movement_of_rotates h]
    · rw [ih (by omega)]

/-- A platform that is not rotating keeps its pose while it does not rotate. -/
theorem partAfter_keeps {c : Config} {clock : ℕ → UInt64} {joined before k : ℕ}
    (hnerve : (partAfter c clock joined before).nerve ≠ .Rotate)
    (h : ∀ i < k, ¬c.Rotates (clock (joined + before + i))) :
    (partAfter c clock joined (before + k)).degrees =
        (partAfter c clock joined before).degrees ∧
      (partAfter c clock joined (before + k)).nerve ≠ .Rotate := by
  induction k with
  | zero => exact ⟨rfl, hnerve⟩
  | succ k ih =>
    obtain ⟨hdegrees, hstill⟩ := ih fun i hi => h i (by omega)
    have hquiet := h k (Nat.lt_succ_self k)
    rw [← Nat.add_assoc, partAfter, ← Nat.add_assoc]
    refine ⟨?_, ?_⟩
    · rw [movement_of_not_rotates hquiet, if_neg hstill, hdegrees]
    · rw [movement_nerve]
      exact hquiet

/-- While the platform has not rotated it has the pose of the stage. -/
theorem partAfter_of_not_rotated {c : Config} {clock : ℕ → UInt64} {joined k : ℕ}
    (h : ∀ i < k, ¬c.Rotates (clock (joined + i))) :
    (partAfter c clock joined k).degrees = 0 := by
  have hnerve : (partAfter c clock joined 0).nerve ≠ .Rotate := fun hrotate => nomatch hrotate
  have hkept := (partAfter_keeps hnerve h).1
  rw [Nat.zero_add] at hkept
  exact hkept

/-- When the platform has stopped, it keeps the pose in which it did. -/
theorem partAfter_of_stopped {c : Config} {clock : ℕ → UInt64} {joined last k : ℕ}
    (hlast : c.Rotates (clock (joined + last)))
    (h : ∀ i < k + 1, ¬c.Rotates (clock (joined + (last + 1) + i))) :
    (partAfter c clock joined (last + 1 + (k + 1))).degrees =
      c.rotateEndDegrees (clock (joined + (last + 1))) := by
  have hrotating : (partAfter c clock joined (last + 1)).nerve = .Rotate := by
    rw [partAfter, movement_of_rotates hlast]
  have hstop := h 0 (Nat.succ_pos k)
  rw [Nat.add_zero] at hstop
  have hstopped : (partAfter c clock joined (last + 1 + 1)).degrees =
      c.rotateEndDegrees (clock (joined + (last + 1))) := by
    rw [partAfter, movement_of_not_rotates hstop, if_pos hrotating]
  have hnerve : (partAfter c clock joined (last + 1 + 1)).nerve ≠ .Rotate := by
    rw [partAfter, movement_nerve]
    exact hstop
  have hquiet : ∀ i < k, ¬c.Rotates (clock (joined + (last + 1 + 1) + i)) := by
    intro i hi
    have hindex : joined + (last + 1 + 1) + i = joined + (last + 1) + (i + 1) := by omega
    rw [hindex]
    exact h (i + 1) (by omega)
  have hcount : last + 1 + (k + 1) = last + 1 + 1 + k := by omega
  rw [hcount, (partAfter_keeps hnerve hquiet).1, hstopped]

/-- The frame in which the platform has stopped last decides its pose. -/
theorem partAfter_of_last {c : Config} {clock : ℕ → UInt64} {joined last n : ℕ}
    (hlast : last + 1 < n) (hrotates : c.Rotates (clock (joined + last)))
    (hnone : ∀ k < n, last < k → ¬c.Rotates (clock (joined + k))) :
    (partAfter c clock joined n).degrees = c.rotateEndDegrees (clock (joined + last + 1)) := by
  have hcount : n = last + 1 + (n - last - 2 + 1) := by omega
  have hstopped : ∀ i < n - last - 2 + 1, ¬c.Rotates (clock (joined + (last + 1) + i)) := by
    intro i hi
    have hindex : joined + (last + 1) + i = joined + (last + 1 + i) := by omega
    rw [hindex]
    exact hnone (last + 1 + i) (by omega) (by omega)
  rw [hcount]
  exact partAfter_of_stopped hrotates hstopped

/-- The frames up to a join and those behind it are the frames of both. -/
theorem quiet_append {c : Config} {clock : ℕ → UInt64} {joined later n : ℕ} {P : ℕ → Prop}
    (hbefore : ∀ k < later, P k → ¬c.Rotates (clock (joined + k)))
    (hbehind : ∀ k < n, ¬c.Rotates (clock (joined + later + k))) :
    ∀ k < later + n, P k → ¬c.Rotates (clock (joined + k)) := by
  intro k hk hP
  rcases Nat.lt_or_ge k later with hlt | hge
  · exact hbefore k hlt hP
  · have hindex : joined + k = joined + later + (k - later) := by omega
    rw [hindex]
    exact hbehind (k - later) (by omega)

/-- A property that some index below a bound has, a last one has. -/
theorem exists_last {P : ℕ → Prop} {n i : ℕ} (hi : i < n) (h : P i) :
    ∃ last < n, P last ∧ ∀ k < n, last < k → ¬P k := by
  induction n with
  | zero => cases hi
  | succ n ih =>
    by_cases hn : P n
    · exact ⟨n, Nat.lt_succ_self n, hn, fun k hk hlast => by omega⟩
    · have hlt : i < n := by
        rcases Nat.lt_succ_iff_lt_or_eq.mp hi with hlt | heq
        · exact hlt
        · exact absurd (heq ▸ h) hn
      obtain ⟨last, hlast, hP, hnone⟩ := ih hlt
      refine ⟨last, by omega, hP, fun k hk hbehind => ?_⟩
      rcases Nat.lt_succ_iff_lt_or_eq.mp hk with hlt | rfl
      · exact hnone k hlt hbehind
      · exact hn

/-- `fmodf` keeps the pose. -/
theorem sameAngle_fmod_iff (x : ℚ) : SameAngle (fmod x 360) 0 ↔ SameAngle x 0 := by
  constructor
  · rintro ⟨turns, h⟩
    refine ⟨turns + truncate (x / 360), ?_⟩
    rw [fmod] at h
    push_cast
    linarith
  · rintro ⟨turns, h⟩
    refine ⟨turns - truncate (x / 360), ?_⟩
    rw [fmod]
    push_cast
    linarith

/-- Equal angles show the same pose. -/
theorem SameAngle.refl (x : ℚ) : SameAngle x x := ⟨0, by ring⟩

/-- Two clients see the same pose exactly when the platform has rotated since the second one
joined, or had not rotated since the first one did, or had stopped last at whole turns. -/
theorem look_the_same_iff (c : Config) (clock : ℕ → UInt64) (joined later ran : ℕ) :
    LookTheSame c clock joined later ran ↔ RotatedSince c clock joined later ran := by
  rw [LookTheSame, RotatedSince]
  by_cases hsince : ∃ k ≤ ran, c.Rotates (clock (joined + later + k))
  · obtain ⟨k, hk, hrotates⟩ := hsince
    rw [partAfter_eq_of_rotates (Nat.lt_succ_of_le hk) hrotates]
    exact iff_of_true (SameAngle.refl _) (Or.inl ⟨k, hk, hrotates⟩)
  · have hquiet : ∀ k < ran + 1, ¬c.Rotates (clock (joined + later + k)) :=
      fun k hk hrotates => hsince ⟨k, Nat.lt_succ_iff.mp hk, hrotates⟩
    rw [partAfter_of_not_rotated hquiet, or_iff_right hsince]
    by_cases hbetween : ∀ k < later, ¬c.Rotates (clock (joined + k))
    · have hnever := quiet_append (P := fun _ => True) (fun k hk _ => hbetween k hk) hquiet
      rw [partAfter_of_not_rotated fun k hk => hnever k hk trivial]
      exact iff_of_true (SameAngle.refl 0) (Or.inl hbetween)
    · rw [or_iff_right hbetween]
      have hstopped : ∀ last < later, c.Rotates (clock (joined + last)) →
          (∀ k < later, last < k → ¬c.Rotates (clock (joined + k))) →
          (partAfter c clock joined (later + (ran + 1))).degrees =
            c.rotateEndDegrees (clock (joined + last + 1)) :=
        fun last hlast hrotates hnone =>
          partAfter_of_last (by omega) hrotates (quiet_append hnone hquiet)
      constructor
      · intro h
        obtain ⟨k, hk⟩ := not_forall.mp hbetween
        obtain ⟨hlt, hrotates⟩ := Classical.not_imp.mp hk
        obtain ⟨last, hlast, hlastRotates, hnone⟩ :=
          exists_last (P := fun k => c.Rotates (clock (joined + k))) hlt (not_not.mp hrotates)
        rw [hstopped last hlast hlastRotates hnone, Config.rotateEndDegrees,
          sameAngle_fmod_iff] at h
        exact ⟨last, hlast, hlastRotates, hnone, h⟩
      · rintro ⟨last, hlast, hrotates, hnone, hturns⟩
        rw [hstopped last hlast hrotates hnone, Config.rotateEndDegrees, sameAngle_fmod_iff]
        exact hturns

/-- A quarter turn in each cycle of twenty frames. -/
def quarterTurns : Config := ⟨90, 10, 0, 0, 10, by decide⟩

/-- A client that joins as the first cycle ends sees the platform as it was built, and one that
has been there sees it a quarter turn on. -/
theorem late_joiner_sees_another_angle :
    ¬LookTheSame quarterTurns (fun n => UInt64.ofNat n) 0 20 0 := by
  rintro ⟨turns, h⟩
  have hearly : (partAfter quarterTurns (fun n => UInt64.ofNat n) 0 21).degrees = 90 := by
    decide +kernel
  have hlate : (partAfter quarterTurns (fun n => UInt64.ofNat n) 20 1).degrees = 0 := by
    decide +kernel
  have hsplit : (90 : ℚ) - 0 = 360 * turns := by
    rw [← hearly, ← hlate]
    exact h
  have hint : (90 : ℤ) = 360 * turns := by exact_mod_cast hsplit
  omega

end BfMultiplayer.ClockMapParts

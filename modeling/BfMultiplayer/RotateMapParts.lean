import BfMultiplayer.GuardedRuns
import BfMultiplayer.SyncClock

/-!
# Parts that rotate with the clock

`RotateMapPartsNet` turns its initial orientation by an angle that it computes anew in
every frame from the shared clock, with `float`s. So it does not matter when the part was
started, and the angle stays that of a constant rotation, also where the clock begins its
next cycle: four hours are 24 turns for every hundredth of a degree that the speed has.
-/

namespace BfMultiplayer.RotateMapParts

open FloatRounding GuardedRuns SyncClock

/-- The nerves. -/
inductive Nerve where
  | StandBy
  | Rotate
  deriving DecidableEq

/-- `RotateMapPartsNet`. -/
structure RotateMapPartsNet where
  /-- `mRotateSpeed`, in hundredths of a degree for each frame. -/
  mRotateSpeed : ℚ
  /-- The nerve. -/
  nerve : Nerve
  /-- How far the orientation is turned from `mInitialQuat`, in degrees. -/
  turned : ℚ

/-- What happens to a part. -/
inductive PartEvent where
  /-- The stage switch calls `start`. -/
  | start
  /-- A frame, at some ticks of the clock. -/
  | frame (ticks : ℕ)

/-- The degrees of `exeRotate`. -/
def degreesAt (freq : FrameTicks) (mRotateSpeed : ℚ) (ticks : ℕ) : ℚ :=
  fmod (toFloat (toFloat (getSyncClockFrames freq ticks).toNat * toFloat (mRotateSpeed / 100))) 360

/-- `start`. -/
def start (part : RotateMapPartsNet) : RotateMapPartsNet := { part with nerve := .Rotate }

/-- `exeRotate`. -/
def exeRotate (freq : FrameTicks) (part : RotateMapPartsNet) (ticks : ℕ) : RotateMapPartsNet :=
  { part with turned := degreesAt freq part.mRotateSpeed ticks }

/-- The step function. -/
def partStep (freq : FrameTicks) (part : RotateMapPartsNet) :
    PartEvent → Option RotateMapPartsNet
  | .start => some (start part)
  | .frame ticks => some (match part.nerve with
    | .StandBy => part
    | .Rotate => exeRotate freq part ticks)

/-- The angle of a part that has always rotated, in degrees and not reduced. -/
def idealDegrees (mRotateSpeed : ℚ) (frame : ℕ) : ℚ := frame * (mRotateSpeed / 100)

/-- The product of a frame of the cycle and the speed, as it is computed. -/
theorem product_error {frame : ℕ} (h : frame < cycleFrames) (mRotateSpeed : ℚ) :
    |toFloat (toFloat frame * toFloat (mRotateSpeed / 100)) - idealDegrees mRotateSpeed frame| ≤
      |mRotateSpeed| / 640 := by
  unfold cycleFrames at h
  have hframe : toFloat frame = frame := roundFloat_natCast (by norm_num) (by omega)
  have herror := roundFloat_mul_error_abs 24 (Nat.cast_nonneg frame) (mRotateSpeed / 100)
  have hcast : (frame : ℚ) ≤ 864000 := by exact_mod_cast h.le
  have hsize : 3 * (frame * |mRotateSpeed / 100|) / 2 ^ 24 ≤ |mRotateSpeed| / 640 := by
    rw [abs_div, abs_of_pos (by norm_num : (0 : ℚ) < 100)]
    have hspeed := abs_nonneg mRotateSpeed
    calc 3 * (frame * (|mRotateSpeed| / 100)) / 2 ^ 24
        ≤ 3 * (864000 * (|mRotateSpeed| / 100)) / 2 ^ 24 := by gcongr
      _ ≤ |mRotateSpeed| / 640 := by linarith
  rw [hframe]
  exact herror.trans hsize

/-- A whole number of cycles is a whole number of turns. -/
theorem idealDegrees_cycle {mRotateSpeed : ℚ} {m : ℤ} (h : 24 * mRotateSpeed = m) (frame : ℕ) :
    ∃ turns : ℤ, idealDegrees mRotateSpeed frame =
      idealDegrees mRotateSpeed (frame % cycleFrames) + 360 * turns := by
  have hframe : (frame : ℚ) = 864000 * (frame / cycleFrames : ℕ) + (frame % cycleFrames : ℕ) := by
    exact_mod_cast (Nat.div_add_mod frame cycleFrames).symm
  generalize frame / cycleFrames = cycles at hframe
  refine ⟨m * cycles, ?_⟩
  unfold idealDegrees
  push_cast
  rw [hframe, ← h]
  ring

/-- The degrees that are computed, as those of a constant rotation. -/
theorem degreesAt_near (freq : FrameTicks) {mRotateSpeed : ℚ} {m : ℤ}
    (hspeed : 24 * mRotateSpeed = m) {ticks : ℕ}
    (h : ticks ≤ 2 ^ 26 * freq.GetSystemTickFrequency) :
    ∃ frame : ℕ, freq.ticksPerPart * frame ≤ ticks ∧ ticks ≤ freq.ticksPerPart * (frame + 1) ∧
      ∃ turns : ℤ, |degreesAt freq mRotateSpeed ticks -
        (idealDegrees mRotateSpeed frame - 360 * turns)| ≤ |mRotateSpeed| / 640 := by
  obtain ⟨frame, hcount, hlow, hhigh⟩ := exists_frame freq ticks h
  refine ⟨frame, hlow, hhigh, ?_⟩
  have hmod : frame % cycleFrames < cycleFrames := Nat.mod_lt _ (by decide)
  have herror := product_error hmod mRotateSpeed
  obtain ⟨cycleTurns, hcycle⟩ := idealDegrees_cycle hspeed frame
  unfold degreesAt
  rw [hcount, fmod]
  obtain ⟨x, hx⟩ : ∃ x, x = toFloat (toFloat (frame % cycleFrames : ℕ) *
    toFloat (mRotateSpeed / 100)) := ⟨_, rfl⟩
  rw [← hx] at herror ⊢
  refine ⟨cycleTurns + truncate (x / 360), ?_⟩
  have hsame : x - 360 * truncate (x / 360) - (idealDegrees mRotateSpeed frame -
      360 * ((cycleTurns + truncate (x / 360) : ℤ) : ℚ)) =
        x - idealDegrees mRotateSpeed (frame % cycleFrames) := by
    rw [hcycle]
    push_cast
    ring
  rw [hsame]
  exact herror

/-- The speed of a part does not change, and it rotates once it does. -/
theorem rotates_step {freq : FrameTicks} {part part' : RotateMapPartsNet} {event : PartEvent}
    (h : partStep freq part event = some part') :
    part'.mRotateSpeed = part.mRotateSpeed ∧
      (part.nerve = .Rotate ∨ event = .start → part'.nerve = .Rotate) := by
  cases event with
  | start =>
    cases h
    exact ⟨rfl, fun _ => rfl⟩
  | frame ticks =>
    rw [partStep, Option.some.injEq] at h
    subst h
    cases hnerve : part.nerve with
    | StandBy => exact ⟨rfl, fun hstarts => by simp at hstarts⟩
    | Rotate => exact ⟨rfl, fun _ => hnerve⟩

/-- So it is after any events. -/
theorem rotates_run {freq : FrameTicks} {part part' : RotateMapPartsNet}
    {events : List PartEvent} (h : run (partStep freq) part events = some part') :
    part'.mRotateSpeed = part.mRotateSpeed ∧
      (part.nerve = .Rotate ∨ PartEvent.start ∈ events → part'.nerve = .Rotate) := by
  induction events generalizing part with
  | nil =>
    cases h
    exact ⟨rfl, fun hstarts => hstarts.resolve_right List.not_mem_nil⟩
  | cons event events ih =>
    rw [run_cons, Option.bind_eq_some_iff] at h
    obtain ⟨next, hstep, hrest⟩ := h
    obtain ⟨hspeed, hnerve⟩ := rotates_step hstep
    obtain ⟨hspeed', hnerve'⟩ := ih hrest
    refine ⟨hspeed'.trans hspeed, fun hstarts => hnerve' ?_⟩
    rcases hstarts with hrotates | hmem
    · exact Or.inl (hnerve (Or.inl hrotates))
    · exact (List.mem_cons.mp hmem).imp (fun he => hnerve (Or.inr he.symm)) id

/-- After a frame of a part that was started the angle is that of the clock, whatever was
before. -/
theorem turned_of_run {freq : FrameTicks} {part part' : RotateMapPartsNet}
    {events : List PartEvent} (hstarts : part.nerve = .Rotate ∨ PartEvent.start ∈ events)
    {ticks : ℕ} (hrun : run (partStep freq) part (events ++ [.frame ticks]) = some part') :
    part'.turned = degreesAt freq part.mRotateSpeed ticks := by
  rw [run_append, Option.bind_eq_some_iff] at hrun
  obtain ⟨before, hbefore, hframe⟩ := hrun
  obtain ⟨hsame, hnerve⟩ := rotates_run hbefore
  rw [run_cons, partStep, hnerve hstarts] at hframe
  cases hframe
  rw [← hsame]
  rfl

/-- A part with a speed in whole 24ths, started at any time and after any frames, is turned as
by a constant rotation: for every frame of the clock, of which no cycle is left out, by the
speed, up to a six hundred and fortieth of it. -/
theorem rotates_with_clock (freq : FrameTicks) (part part' : RotateMapPartsNet)
    (events : List PartEvent) (hstarts : part.nerve = .Rotate ∨ PartEvent.start ∈ events) (m : ℤ)
    (hspeed : 24 * part.mRotateSpeed = m) (ticks : ℕ)
    (h : ticks ≤ 2 ^ 26 * freq.GetSystemTickFrequency)
    (hrun : run (partStep freq) part (events ++ [.frame ticks]) = some part') :
    |part'.turned| < 360 ∧
      ∃ frame : ℕ, freq.ticksPerPart * frame ≤ ticks ∧
        ticks ≤ freq.ticksPerPart * (frame + 1) ∧
        ∃ turns : ℤ, |part'.turned -
          (frame * (part.mRotateSpeed / 100) - 360 * turns)| ≤ |part.mRotateSpeed| / 640 := by
  rw [turned_of_run hstarts hrun]
  exact ⟨fmod_lt _ (by norm_num), degreesAt_near freq hspeed h⟩

/-- A part that was started once: a degree for each frame. -/
theorem rotates_with_clock_started :
    ∃ part', run (partStep consoleFrequency) ⟨100, .StandBy, 0⟩
        ([.frame 5, .start] ++ [.frame 640001]) = some part' ∧
      |part'.turned| < 360 ∧ ∃ frame : ℕ, 320000 * frame ≤ 640001 ∧
        640001 ≤ 320000 * (frame + 1) ∧
        ∃ turns : ℤ, |part'.turned - (frame * ((100 : ℚ) / 100) - 360 * turns)| ≤ |(100 : ℚ)| / 640 :=
  ⟨_, rfl, rotates_with_clock consoleFrequency ⟨100, .StandBy, 0⟩ _ [.frame 5, .start]
    (Or.inr (by simp)) 2400 (by norm_num) 640001 (by decide) rfl⟩

/-- Frames that begin at most so many ticks apart. -/
theorem frames_apart {ticksPerFrame frame frame' ticks ticks' : ℕ} (hpos : 0 < ticksPerFrame)
    (hlow : ticksPerFrame * frame ≤ ticks) (hhigh : ticks' ≤ ticksPerFrame * (frame' + 1)) :
    (frame : ℚ) - frame' ≤ |(ticks : ℚ) - ticks'| / ticksPerFrame + 1 := by
  have hq : (0 : ℚ) < ticksPerFrame := by exact_mod_cast hpos
  have hlow' : (ticksPerFrame : ℚ) * frame ≤ ticks := by exact_mod_cast hlow
  have hhigh' : (ticks' : ℚ) ≤ ticksPerFrame * (frame' + 1) := by exact_mod_cast hhigh
  have hdistance := le_abs_self ((ticks : ℚ) - ticks')
  rw [← sub_le_iff_le_add, le_div_iff₀ hq]
  linarith

/-- The same part on two consoles: the angles differ, up to whole turns, by what the part
turns in the time between the two clocks and a frame, and twice the error of one of them. -/
theorem parts_agree (freq : FrameTicks) (part part' other other' : RotateMapPartsNet)
    (events events' : List PartEvent)
    (hstarts : part.nerve = .Rotate ∨ PartEvent.start ∈ events)
    (hstarts' : other.nerve = .Rotate ∨ PartEvent.start ∈ events')
    (hsame : other.mRotateSpeed = part.mRotateSpeed) (m : ℤ) (hspeed : 24 * part.mRotateSpeed = m)
    (ticks ticks' : ℕ) (h : ticks ≤ 2 ^ 26 * freq.GetSystemTickFrequency)
    (h' : ticks' ≤ 2 ^ 26 * freq.GetSystemTickFrequency)
    (hrun : run (partStep freq) part (events ++ [.frame ticks]) = some part')
    (hrun' : run (partStep freq) other (events' ++ [.frame ticks']) = some other') :
    ∃ turns : ℤ, |part'.turned - other'.turned - 360 * turns| ≤
      |part.mRotateSpeed| / 100 * (|(ticks : ℚ) - ticks'| / freq.ticksPerPart + 1) +
        |part.mRotateSpeed| / 320 := by
  rw [turned_of_run hstarts hrun, turned_of_run hstarts' hrun', hsame]
  obtain ⟨frame, hlow, hhigh, turns, hnear⟩ := degreesAt_near freq hspeed h
  obtain ⟨frame', hlow', hhigh', turns', hnear'⟩ := degreesAt_near freq hspeed h'
  have hpos := freq.moves
  have hapart : |(frame : ℚ) - frame'| ≤ |(ticks : ℚ) - ticks'| / freq.ticksPerPart + 1 := by
    rw [abs_le]
    have habove := frames_apart hpos hlow hhigh'
    have hbelow := frames_apart hpos hlow' hhigh
    rw [abs_sub_comm] at hbelow
    constructor <;> linarith
  have hideal : |idealDegrees part.mRotateSpeed frame - idealDegrees part.mRotateSpeed frame'| ≤
      |part.mRotateSpeed| / 100 * (|(ticks : ℚ) - ticks'| / freq.ticksPerPart + 1) := by
    have hsub : idealDegrees part.mRotateSpeed frame - idealDegrees part.mRotateSpeed frame' =
        part.mRotateSpeed / 100 * (frame - frame') := by
      unfold idealDegrees
      ring
    rw [hsub, abs_mul, abs_div, abs_of_pos (by norm_num : (0 : ℚ) < 100)]
    gcongr
  refine ⟨turns' - turns, ?_⟩
  push_cast
  obtain ⟨h₁, h₂⟩ := abs_le.mp hnear
  obtain ⟨h₃, h₄⟩ := abs_le.mp hnear'
  obtain ⟨h₅, h₆⟩ := abs_le.mp hideal
  rw [abs_le]
  constructor <;> linarith

/-- Two parts a second apart, one of them started late. -/
theorem parts_agree_second :
    ∃ part' other', run (partStep consoleFrequency) ⟨100, .Rotate, 0⟩ ([] ++ [.frame 0]) =
        some part' ∧
      run (partStep consoleFrequency) ⟨100, .StandBy, 0⟩ ([.start] ++ [.frame 19200000]) =
        some other' ∧
      ∃ turns : ℤ, |part'.turned - other'.turned - 360 * turns| ≤
        |(100 : ℚ)| / 100 * (|((0 : ℕ) : ℚ) - (19200000 : ℕ)| / (320000 : ℕ) + 1) +
          |(100 : ℚ)| / 320 :=
  ⟨_, _, rfl, rfl, parts_agree consoleFrequency ⟨100, .Rotate, 0⟩ _ ⟨100, .StandBy, 0⟩ _ []
    [.start] (Or.inl rfl) (Or.inr (by simp)) rfl 2400 (by norm_num) 0 19200000 (by decide)
    (by decide) rfl rfl⟩

end BfMultiplayer.RotateMapParts

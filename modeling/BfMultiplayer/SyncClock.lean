import BfMultiplayer.FloatRounding
import BfMultiplayer.SystemTicks

/-!
# The clock that the players share

The server tells every client how long it has been running. A client adds half of its
last round trip, turns the sum into ticks of its own system clock and counts on from
there. Frames are computed from the ticks with `double`s. They are exact up to a single
tick, and the clocks of two players differ by what their round trips are not twice the
way down.
-/

namespace BfMultiplayer.SyncClock

open FloatRounding SystemTicks

/-- A frequency of whole ticks for a frame, at most `2 ^ 25` a second. -/
abbrev FrameTicks := TickFrequency 60 (2 ^ 25 + 1)

/-- `NetClient::getSyncClock`, from the ticks. -/
def getSyncClock (freq : FrameTicks) (ticks : ℤ) : ℚ :=
  fmod (toDouble (toDouble ticks / toDouble freq.GetSystemTickFrequency)) 14400

/-- `getSyncClockFrames`, from the ticks. -/
def getSyncClockFrames (freq : FrameTicks) (ticks : ℤ) : UInt64 :=
  UInt64.ofNat (truncate (toDouble (getSyncClock freq ticks * 60))).toNat

/-- The frames of a cycle, four hours. -/
def cycleFrames : ℕ := 864000

/-- The frame that a tick is in. -/
def frameOf (freq : FrameTicks) (ticks : ℕ) : ℕ := ticks / freq.ticksPerPart % cycleFrames

/-- Numbers up to `2 ^ 53` are `double`s. -/
theorem toDouble_natCast {n : ℕ} (h : n ≤ 2 ^ 53) : toDouble n = n :=
  roundFloat_natCast (by norm_num) h

/-- A number less than a tick away from the ticks counted in frames is in the frame of
the ticks, or in the one before, when a frame begins. -/
theorem truncate_near {y : ℚ} {n r f : ℕ} (hf : 0 < f) (hr : r < f) (hy : 0 ≤ y)
    (hnear : |y - (n + r / f)| < 1 / f) :
    ∃ m : ℕ, truncate y = m ∧ (m = n ∨ r = 0 ∧ m + 1 = n) := by
  have hfq : (0 : ℚ) < f := by exact_mod_cast hf
  have hone : (1 : ℚ) / f ≤ 1 := by
    rw [div_le_one hfq]
    exact_mod_cast hf
  obtain ⟨hlow, hhigh⟩ := abs_lt.mp hnear
  rcases Nat.eq_zero_or_pos r with rfl | hpos
  · rw [Nat.cast_zero, zero_div, add_zero] at hlow hhigh
    by_cases hbelow : (n : ℚ) ≤ y
    · exact ⟨n, truncate_eq hbelow (by linarith), Or.inl rfl⟩
    · rw [not_le] at hbelow
      cases n with
      | zero =>
        rw [Nat.cast_zero] at hbelow
        linarith
      | succ n =>
        push_cast at hbelow hlow
        exact ⟨n, truncate_eq (by linarith) (by linarith), Or.inr ⟨rfl, rfl⟩⟩
  · refine ⟨n, truncate_eq ?_ ?_, Or.inl rfl⟩
    · have hstep : (1 : ℚ) / f ≤ r / f := by
        gcongr
        exact_mod_cast hpos
      linarith
    · have hstep : (r : ℚ) / f ≤ 1 - 1 / f := by
        rw [le_sub_iff_add_le, ← add_div, div_le_one hfq]
        exact_mod_cast hr
      linarith

/-- The frequency is at most `2 ^ 25`. -/
theorem frequency_le (freq : FrameTicks) : freq.GetSystemTickFrequency ≤ 2 ^ 25 :=
  Nat.lt_succ_iff.mp freq.fits

/-- The seconds of the ticks as a `double`, for less than `2 ^ 26` seconds. -/
theorem seconds_error (freq : FrameTicks) {ticks : ℕ}
    (h : ticks ≤ 2 ^ 26 * freq.GetSystemTickFrequency) :
    toDouble (toDouble (ticks : ℤ) / toDouble freq.GetSystemTickFrequency) =
        toDouble (ticks / freq.GetSystemTickFrequency) ∧
      |toDouble ((ticks : ℚ) / freq.GetSystemTickFrequency) -
        ticks / freq.GetSystemTickFrequency| ≤ 1 / 2 ^ 27 := by
  have hmany := frequency_le freq
  have hpos : 0 < freq.GetSystemTickFrequency := Nat.mul_pos (by norm_num) freq.moves
  have hticks : toDouble ((ticks : ℤ) : ℚ) = ticks := by
    rw [Int.cast_natCast]
    refine toDouble_natCast (h.trans ?_)
    calc 2 ^ 26 * freq.GetSystemTickFrequency ≤ 2 ^ 26 * 2 ^ 25 := Nat.mul_le_mul_left _ hmany
      _ ≤ 2 ^ 53 := by norm_num
  have hfrequency : toDouble (freq.GetSystemTickFrequency : ℚ) = freq.GetSystemTickFrequency :=
    toDouble_natCast (hmany.trans (by norm_num))
  have hfreqPos : (0 : ℚ) < freq.GetSystemTickFrequency := by exact_mod_cast hpos
  have hseconds : (ticks : ℚ) / freq.GetSystemTickFrequency ≤ 2 ^ 26 := by
    rw [div_le_iff₀ hfreqPos]
    exact_mod_cast h
  refine ⟨by rw [hticks, hfrequency], ?_⟩
  calc |toDouble ((ticks : ℚ) / freq.GetSystemTickFrequency) -
        ticks / freq.GetSystemTickFrequency|
      ≤ ticks / freq.GetSystemTickFrequency / 2 ^ 53 := roundFloat_error (by positivity)
    _ ≤ 2 ^ 26 / 2 ^ 53 := by gcongr
    _ = 1 / 2 ^ 27 := by norm_num

/-- The frequency, in ticks of a frame. -/
theorem frequency_eq (freq : FrameTicks) :
    (freq.GetSystemTickFrequency : ℚ) = 60 * freq.ticksPerPart := by
  unfold TickFrequency.GetSystemTickFrequency
  push_cast
  rfl

/-- What the ticks are: whole cycles, the frame in the cycle and a part of the frame. -/
theorem ticks_eq (freq : FrameTicks) (ticks : ℕ) :
    ticks = freq.ticksPerPart *
        (cycleFrames * (ticks / freq.ticksPerPart / cycleFrames) + frameOf freq ticks) +
      ticks % freq.ticksPerPart := by
  rw [frameOf, Nat.div_add_mod, Nat.div_add_mod]

/-- The frame that ticks are in, and the part of it, in frames. -/
def frameTime (freq : FrameTicks) (ticks : ℕ) : ℚ :=
  frameOf freq ticks + (ticks % freq.ticksPerPart : ℕ) / freq.ticksPerPart

/-- It is at least one tick in front of the end of the cycle. -/
theorem frameTime_bounds (freq : FrameTicks) (ticks : ℕ) :
    0 ≤ frameTime freq ticks ∧ frameTime freq ticks ≤ 864000 - 1 / freq.ticksPerPart := by
  have hf := freq.moves
  have hfq : (0 : ℚ) < freq.ticksPerPart := by exact_mod_cast hf
  have hframe : frameOf freq ticks < 864000 := Nat.mod_lt _ (by decide)
  have hrest : ticks % freq.ticksPerPart < freq.ticksPerPart := Nat.mod_lt _ hf
  have hframeCast : (frameOf freq ticks : ℚ) + 1 ≤ 864000 := by exact_mod_cast hframe
  have hrestCast : ((ticks % freq.ticksPerPart : ℕ) : ℚ) / freq.ticksPerPart ≤
      1 - 1 / freq.ticksPerPart := by
    rw [le_sub_iff_add_le, ← add_div, div_le_one hfq]
    exact_mod_cast hrest
  unfold frameTime
  exact ⟨by positivity, by linarith⟩

/-- The seconds of the ticks, in cycles and frames. -/
theorem seconds_eq (freq : FrameTicks) (ticks : ℕ) :
    (ticks : ℚ) / freq.GetSystemTickFrequency =
      14400 * (ticks / freq.ticksPerPart / cycleFrames : ℕ) + frameTime freq ticks / 60 := by
  have hfq : (0 : ℚ) < freq.ticksPerPart := by exact_mod_cast freq.moves
  have hcast : (ticks : ℚ) = freq.ticksPerPart *
      (864000 * (ticks / freq.ticksPerPart / cycleFrames : ℕ) + frameOf freq ticks) +
        (ticks % freq.ticksPerPart : ℕ) := by
    exact_mod_cast ticks_eq freq ticks
  have hfrequency := frequency_eq freq
  obtain ⟨k, hk⟩ : ∃ k : ℕ, k = ticks / freq.ticksPerPart / cycleFrames := ⟨_, rfl⟩
  rw [← hk] at hcast ⊢
  rw [hfrequency, div_eq_iff (by positivity), frameTime, hcast]
  field_simp
  ring

/-- The clock as a `double`, in frames. -/
theorem getSyncClock_error (freq : FrameTicks) {ticks : ℕ}
    (h : ticks ≤ 2 ^ 26 * freq.GetSystemTickFrequency) :
    0 ≤ getSyncClock freq ticks ∧ getSyncClock freq ticks < 14400 ∧
      |getSyncClock freq ticks * 60 - frameTime freq ticks| ≤ 60 / 2 ^ 27 := by
  obtain ⟨hsame, herror⟩ := seconds_error freq h
  obtain ⟨hbelow, habove⟩ := abs_le.mp herror
  obtain ⟨hpos, hlast⟩ := frameTime_bounds freq ticks
  have hseconds := seconds_eq freq ticks
  have hfq : (0 : ℚ) < freq.ticksPerPart := by exact_mod_cast freq.moves
  have hmany : (freq.GetSystemTickFrequency : ℚ) ≤ 2 ^ 25 := by exact_mod_cast frequency_le freq
  have hfrequency := frequency_eq freq
  have htick : (1 : ℚ) / 2 ^ 25 ≤ 1 / freq.ticksPerPart / 60 := by
    rw [div_div, mul_comm, ← hfrequency]
    exact one_div_le_one_div_of_le (by rw [hfrequency]; positivity) hmany
  have hseconds26 : (ticks : ℚ) / freq.GetSystemTickFrequency ≤ 2 ^ 26 := by
    rw [div_le_iff₀ (by rw [hfrequency]; positivity)]
    exact_mod_cast h
  obtain ⟨k, hk⟩ : ∃ k : ℕ, k = ticks / freq.ticksPerPart / cycleFrames := ⟨_, rfl⟩
  rw [← hk] at hseconds
  have hstart : (14400 * k : ℚ) ≤ toDouble (ticks / freq.GetSystemTickFrequency) := by
    have hcycle : ((14400 * k : ℕ) : ℚ) ≤ ticks / freq.GetSystemTickFrequency := by
      rw [hseconds]
      push_cast
      linarith
    have hsmall : 14400 * k ≤ 2 ^ 53 := by
      have hcast : ((14400 * k : ℕ) : ℚ) ≤ ((2 ^ 26 : ℕ) : ℚ) := by
        push_cast at hcycle ⊢
        exact hcycle.trans hseconds26
      exact (Nat.cast_le.mp hcast).trans (by norm_num)
    have hround := natCast_le_roundFloat (by norm_num) hsmall hcycle
    push_cast at hround
    exact hround
  have hclock : getSyncClock freq ticks =
      toDouble (ticks / freq.GetSystemTickFrequency) - 14400 * k := by
    rw [getSyncClock, hsame]
    refine fmod_eq (by norm_num) hstart ?_
    linarith
  rw [hclock]
  refine ⟨by linarith, by linarith, ?_⟩
  rw [abs_le]
  constructor <;> linarith

/-- A frame has less than `2 ^ 20` ticks. -/
theorem frame_le_ticks (freq : FrameTicks) : (60 : ℚ) / 2 ^ 25 ≤ 1 / freq.ticksPerPart := by
  have hfq : (0 : ℚ) < freq.ticksPerPart := by exact_mod_cast freq.moves
  have hmany : (60 * freq.ticksPerPart : ℚ) ≤ 2 ^ 25 := by
    rw [← frequency_eq]
    exact_mod_cast frequency_le freq
  rw [div_le_div_iff₀ (by norm_num) hfq]
  linarith

/-- For less than `2 ^ 26` seconds the frame count is the frame that the ticks are in, or
the one before when a frame begins at this very tick. -/
theorem getSyncClockFrames_eq (freq : FrameTicks) (ticks : ℕ)
    (h : ticks ≤ 2 ^ 26 * freq.GetSystemTickFrequency) :
    (getSyncClockFrames freq ticks).toNat = frameOf freq ticks ∨
      freq.ticksPerPart ∣ ticks ∧
        (getSyncClockFrames freq ticks).toNat + 1 = frameOf freq ticks := by
  obtain ⟨hpos, hlast, herror⟩ := getSyncClock_error freq h
  have hf := freq.moves
  have hround : |toDouble (getSyncClock freq ticks * 60) - getSyncClock freq ticks * 60| ≤
      864000 / 2 ^ 53 := by
    refine (roundFloat_error (by linarith)).trans ?_
    gcongr
    linarith
  have hnear : |toDouble (getSyncClock freq ticks * 60) - frameTime freq ticks| <
      1 / freq.ticksPerPart := by
    have htick := frame_le_ticks freq
    obtain ⟨hr₁, hr₂⟩ := abs_le.mp hround
    obtain ⟨he₁, he₂⟩ := abs_le.mp herror
    rw [abs_lt]
    constructor <;> linarith
  have hdouble : 0 ≤ toDouble (getSyncClock freq ticks * 60) :=
    roundFloat_nonneg (by norm_num) (by linarith)
  obtain ⟨m, hm, hframes⟩ := truncate_near hf (Nat.mod_lt ticks hf) hdouble hnear
  have hframe : frameOf freq ticks < 864000 := Nat.mod_lt _ (by decide)
  have hcount : (getSyncClockFrames freq ticks).toNat = m := by
    rw [getSyncClockFrames, hm, Int.toNat_natCast, UInt64.toNat_ofNat', Nat.mod_eq_of_lt]
    omega
  rw [hcount]
  rcases hframes with heq | ⟨hrest, heq⟩
  · exact Or.inl heq
  · exact Or.inr ⟨Nat.dvd_of_mod_eq_zero hrest, heq⟩

/-- The frequency of the console. -/
def consoleFrequency : FrameTicks := ⟨320000, by norm_num, by norm_num⟩

/-- A tick behind the beginning of the third frame. -/
theorem getSyncClockFrames_third :
    (getSyncClockFrames consoleFrequency (640001 : ℕ)).toNat = 2 := by
  rcases getSyncClockFrames_eq consoleFrequency 640001 (by decide) with heq | ⟨hwhole, -⟩
  · exact heq.trans (by decide)
  · exact absurd hwhole (by decide)

/-- The frame count, as it would be without cycles. -/
theorem exists_frame (freq : FrameTicks) (ticks : ℕ)
    (h : ticks ≤ 2 ^ 26 * freq.GetSystemTickFrequency) :
    ∃ n, (getSyncClockFrames freq ticks).toNat = n % cycleFrames ∧
      freq.ticksPerPart * n ≤ ticks ∧ ticks ≤ freq.ticksPerPart * (n + 1) := by
  have hf := freq.moves
  have hdivision := Nat.div_add_mod ticks freq.ticksPerPart
  have hrest := Nat.mod_lt ticks hf
  rcases getSyncClockFrames_eq freq ticks h with heq | ⟨hwhole, heq⟩
  · refine ⟨ticks / freq.ticksPerPart, heq, Nat.mul_div_le _ _, ?_⟩
    rw [Nat.mul_add]
    omega
  · unfold frameOf cycleFrames at heq
    have hpos : 0 < ticks / freq.ticksPerPart := by
      by_contra hzero
      rw [Nat.eq_zero_of_not_pos hzero, Nat.zero_mod] at heq
      omega
    have hmul : freq.ticksPerPart * (ticks / freq.ticksPerPart) = ticks :=
      Nat.mul_div_cancel' hwhole
    refine ⟨ticks / freq.ticksPerPart - 1, ?_, ?_, ?_⟩
    · unfold cycleFrames
      omega
    · exact (Nat.mul_le_mul_left _ (Nat.sub_le _ _)).trans hmul.le
    · rw [Nat.sub_add_cancel hpos]
      exact hmul.ge

/-- A console, whose ticks count from some time on, in nanoseconds. -/
structure Console where
  /-- When they were zero. -/
  boot : ℚ

/-- `nn::os::GetSystemTick` at a time in nanoseconds. -/
def Console.GetSystemTick (console : Console) (freq : FrameTicks) (time : ℤ) : ℤ :=
  ⌊(time - console.boot) * freq.GetSystemTickFrequency / 10 ^ 9⌋

/-- An update of the clock. Times are in nanoseconds, the round trip in milliseconds. -/
structure ClockUpdate where
  /-- When `handleGreet` on the server reads its clock. -/
  sent : ℤ
  /-- When the client handles the packet. -/
  handled : ℤ
  /-- `lastRoundTripTime` of the peer then. -/
  lastRoundTripTime : UInt32

/-- The packet of `handleGreet`, of a server that has started at some time. -/
def syncClockPacket (started sent : ℤ) : UInt64 := UInt64.ofInt ((sent - started).tdiv 1000)

/-- The progress of `handleToC_SyncClockUpdate`. -/
def syncClockProgress (microseconds : UInt64) (lastRoundTripTime : UInt32) : UInt64 :=
  microseconds + (lastRoundTripTime * 500).toUInt64

/-- The ticks of `NetClient::updateSyncClockStartTick`. -/
def ticksOf (freq : FrameTicks) (microseconds : UInt64) : ℤ :=
  truncate (toDouble (toDouble microseconds.toNat *
    toDouble (toDouble freq.GetSystemTickFrequency / 1000000)))

/-- `NetClient::updateSyncClockStartTick`. -/
def updateSyncClockStartTick (freq : FrameTicks) (microseconds : UInt64) (now : ℤ) : ℤ :=
  now - ticksOf freq microseconds

/-- `handleToC_SyncClockUpdate`. -/
def handleToC_SyncClockUpdate (freq : FrameTicks) (console : Console) (started : ℤ)
    (update : ClockUpdate) : ℤ :=
  updateSyncClockStartTick freq
    (syncClockProgress (syncClockPacket started update.sent) update.lastRoundTripTime)
    (console.GetSystemTick freq update.handled)

/-- `mSyncClockStartTick` after updates. -/
def syncClockStartTick (freq : FrameTicks) (console : Console) (started : ℤ)
    (updates : List ClockUpdate) : ℤ :=
  updates.foldl (fun _ update => handleToC_SyncClockUpdate freq console started update) 0

/-- `NetClient::getSyncClockTicks`. -/
def getSyncClockTicks (freq : FrameTicks) (console : Console) (mSyncClockStartTick time : ℤ) :
    ℤ := console.GetSystemTick freq time - mSyncClockStartTick

/-- An update that is handled after it is sent, by a server that has not run for more
than `2 ^ 25` seconds, with a round trip that is twice the way down up to some
microseconds, and of less than `2 ^ 23` milliseconds. -/
structure ClockUpdate.Within (update : ClockUpdate) (started : ℤ) (asymmetry : ℚ) : Prop where
  /-- The server has started. -/
  started_le : started ≤ update.sent
  /-- It has not run for too long. -/
  sent_le : update.sent ≤ started + 2 ^ 25 * 10 ^ 9
  /-- The client handles what was sent. -/
  sent_le_handled : update.sent ≤ update.handled
  /-- The round trip is not too long. -/
  roundTrip_lt : update.lastRoundTripTime.toNat < 2 ^ 23
  /-- Its half is the way down, up to some microseconds. -/
  half : |500 * (update.lastRoundTripTime.toNat : ℚ) -
    ((update.handled - update.sent : ℤ) : ℚ) / 1000| ≤ asymmetry

/-- The ticks of microseconds are right up to three ticks. -/
theorem ticksOf_error (freq : FrameTicks) {microseconds : UInt64}
    (h : microseconds.toNat ≤ 2 ^ 46) :
    0 ≤ ticksOf freq microseconds ∧
      |(ticksOf freq microseconds : ℚ) -
        microseconds.toNat * (freq.GetSystemTickFrequency / 1000000)| ≤ 5 / 2 := by
  have hmany : (freq.GetSystemTickFrequency : ℚ) ≤ 2 ^ 25 := by exact_mod_cast frequency_le freq
  have hmicroseconds : toDouble (microseconds.toNat : ℚ) = microseconds.toNat :=
    toDouble_natCast (h.trans (by norm_num))
  have hfrequency : toDouble (freq.GetSystemTickFrequency : ℚ) = freq.GetSystemTickFrequency :=
    toDouble_natCast ((frequency_le freq).trans (by norm_num))
  obtain ⟨n, hn⟩ : ∃ n : ℚ, n = microseconds.toNat := ⟨_, rfl⟩
  have hnpos : 0 ≤ n := hn ▸ Nat.cast_nonneg _
  have hnle : n ≤ 2 ^ 46 := by
    rw [hn]
    exact_mod_cast h
  obtain ⟨c, hc⟩ : ∃ c : ℚ, c = freq.GetSystemTickFrequency / 1000000 := ⟨_, rfl⟩
  have hcpos : 0 ≤ c := by
    rw [hc]
    positivity
  have hcle : c ≤ 2 ^ 25 / 1000000 := by
    rw [hc]
    gcongr
  rw [ticksOf, hmicroseconds, hfrequency, ← hn, ← hc]
  have hproduct : n * c ≤ 2 ^ 52 := by
    calc n * c ≤ 2 ^ 46 * (2 ^ 25 / 1000000) := by gcongr
      _ ≤ 2 ^ 52 := by norm_num
  have herror : |toDouble (n * toDouble c) - n * c| ≤ 3 / 2 := by
    refine (roundFloat_mul_error hnpos hcpos).trans ?_
    rw [div_le_div_iff₀ (by norm_num) (by norm_num)]
    linarith
  have hpos : 0 ≤ toDouble (n * toDouble c) :=
    roundFloat_nonneg (by norm_num) (mul_nonneg hnpos (roundFloat_nonneg (by norm_num) hcpos))
  obtain ⟨hbelow, habove⟩ := abs_le.mp herror
  rw [truncate, if_pos hpos]
  refine ⟨Int.floor_nonneg.mpr hpos, ?_⟩
  have hfloor := Int.floor_le (toDouble (n * toDouble c))
  have hnext := Int.lt_floor_add_one (toDouble (n * toDouble c))
  rw [abs_le]
  constructor <;> linarith

/-- The progress is the time that the server has run, in whole microseconds, and half the
round trip. -/
theorem exists_progress {update : ClockUpdate} {started : ℤ} {asymmetry : ℚ}
    (h : update.Within started asymmetry) :
    ∃ m : ℕ, (syncClockProgress (syncClockPacket started update.sent)
        update.lastRoundTripTime).toNat = m + 500 * update.lastRoundTripTime.toNat ∧
      m * 1000 ≤ update.sent - started ∧ update.sent - started < m * 1000 + 1000 := by
  have hstarted := h.started_le
  have hsent := h.sent_le
  have htrip := h.roundTrip_lt
  obtain ⟨elapsed, helapsed⟩ := Int.eq_ofNat_of_zero_le (Int.sub_nonneg.mpr hstarted)
  have hdivision : (update.sent - started).tdiv 1000 = (elapsed / 1000 : ℕ) := by
    rw [helapsed]
    exact Int.ofNat_tdiv elapsed 1000
  refine ⟨elapsed / 1000, ?_, by omega, by omega⟩
  have hpacket : (syncClockPacket started update.sent).toNat = elapsed / 1000 := by
    rw [syncClockPacket, hdivision, UInt64.ofInt, UInt64.toNat_ofNat']
    omega
  have hhalf : (update.lastRoundTripTime * 500).toUInt64.toNat =
      500 * update.lastRoundTripTime.toNat := by
    rw [UInt32.toNat_toUInt64, UInt32.toNat_mul]
    simp only [UInt32.reduceToNat]
    omega
  rw [syncClockProgress, UInt64.toNat_add, hpacket, hhalf, Nat.mod_eq_of_lt]
  omega

/-- Two readings of the ticks differ by the time between them up to a tick. -/
theorem GetSystemTick_error (console : Console) (freq : FrameTicks) {first last : ℤ}
    (h : first ≤ last) :
    console.GetSystemTick freq first ≤ console.GetSystemTick freq last ∧
      |((console.GetSystemTick freq last - console.GetSystemTick freq first : ℤ) : ℚ) -
        freq.GetSystemTickFrequency / 1000000 * ((last - first : ℤ) / 1000)| ≤ 1 := by
  have hcast : (first : ℚ) ≤ last := by exact_mod_cast h
  unfold Console.GetSystemTick
  obtain ⟨c, hc⟩ : ∃ c : ℚ, c = freq.GetSystemTickFrequency := ⟨_, rfl⟩
  have hcpos : 0 ≤ c := hc ▸ Nat.cast_nonneg _
  rw [← hc]
  constructor
  · refine Int.floor_mono ?_
    gcongr
  · have hlow₁ := Int.floor_le ((first - console.boot) * c / 10 ^ 9)
    have hhigh₁ := Int.lt_floor_add_one ((first - console.boot) * c / 10 ^ 9)
    have hlow₂ := Int.floor_le ((last - console.boot) * c / 10 ^ 9)
    have hhigh₂ := Int.lt_floor_add_one ((last - console.boot) * c / 10 ^ 9)
    have hdifference : c / 1000000 * ((last - first : ℤ) / 1000) =
        (last - console.boot) * c / 10 ^ 9 - (first - console.boot) * c / 10 ^ 9 := by
      push_cast
      ring
    rw [hdifference, abs_le]
    push_cast
    constructor <;> linarith

/-- What an update makes of the ticks: they count the time that the server has run, up to
the asymmetry of the round trip, a microsecond and four ticks. -/
theorem update_error (freq : FrameTicks) (console : Console) {started time : ℤ}
    {update : ClockUpdate} {asymmetry : ℚ} (h : update.Within started asymmetry)
    (htime : update.handled ≤ time) (hrunning : time ≤ started + 2 ^ 25 * 10 ^ 9) :
    0 ≤ getSyncClockTicks freq console
        (handleToC_SyncClockUpdate freq console started update) time ∧
      getSyncClockTicks freq console
        (handleToC_SyncClockUpdate freq console started update) time ≤
          2 ^ 26 * freq.GetSystemTickFrequency ∧
      |(getSyncClockTicks freq console
          (handleToC_SyncClockUpdate freq console started update) time : ℚ) -
        freq.GetSystemTickFrequency / 1000000 * ((time - started : ℤ) / 1000)| ≤
          freq.GetSystemTickFrequency / 1000000 * (asymmetry + 1) + 4 := by
  obtain ⟨m, hprogress, hm, hm'⟩ := exists_progress h
  have hsent := h.sent_le
  have hhandled := h.sent_le_handled
  have htrip := h.roundTrip_lt
  have hsmall : (syncClockProgress (syncClockPacket started update.sent)
      update.lastRoundTripTime).toNat ≤ 2 ^ 46 := by omega
  obtain ⟨hticks, hticksError⟩ := ticksOf_error freq hsmall
  obtain ⟨hmono, htickError⟩ := GetSystemTick_error console freq htime
  rw [hprogress] at hticksError
  have hsum : getSyncClockTicks freq console
      (handleToC_SyncClockUpdate freq console started update) time =
        console.GetSystemTick freq time - console.GetSystemTick freq update.handled +
          ticksOf freq (syncClockProgress (syncClockPacket started update.sent)
            update.lastRoundTripTime) := by
    unfold getSyncClockTicks handleToC_SyncClockUpdate updateSyncClockStartTick
    ring
  obtain ⟨counted, hcounted⟩ : ∃ counted, counted =
      console.GetSystemTick freq time - console.GetSystemTick freq update.handled := ⟨_, rfl⟩
  obtain ⟨ticks, hticksEq⟩ : ∃ ticks, ticks = ticksOf freq (syncClockProgress
      (syncClockPacket started update.sent) update.lastRoundTripTime) := ⟨_, rfl⟩
  rw [← hcounted, ← hticksEq] at hsum
  rw [← hcounted] at htickError
  rw [← hticksEq] at hticks hticksError
  rw [hsum]
  obtain ⟨r, hr⟩ : ∃ r : ℚ, r = update.lastRoundTripTime.toNat := ⟨_, rfl⟩
  have hrle : r ≤ 2 ^ 23 := by
    rw [hr]
    exact_mod_cast htrip.le
  have hfrequency : (60 : ℚ) ≤ freq.GetSystemTickFrequency := by
    have hmoves : (1 : ℚ) ≤ freq.ticksPerPart := by exact_mod_cast freq.moves
    rw [frequency_eq freq]
    linarith
  obtain ⟨c, hc⟩ : ∃ c : ℚ, c = freq.GetSystemTickFrequency / 1000000 := ⟨_, rfl⟩
  have hcpos : 0 ≤ c := by
    rw [hc]
    positivity
  have hhalf := h.half
  push_cast at htickError hticksError hhalf ⊢
  rw [← hr] at hticksError hhalf
  rw [← hc] at htickError hticksError ⊢
  have hmq : (m : ℚ) * 1000 ≤ update.sent - started := by exact_mod_cast hm
  have hmq' : (update.sent : ℚ) - started ≤ m * 1000 + 1000 := by exact_mod_cast hm'.le
  have hrunningq : (time : ℚ) ≤ started + 2 ^ 25 * 10 ^ 9 := by exact_mod_cast hrunning
  have hhandledq : (update.sent : ℚ) ≤ update.handled := by exact_mod_cast hhandled
  obtain ⟨ha₁, ha₂⟩ := abs_le.mp htickError
  obtain ⟨hb₁, hb₂⟩ := abs_le.mp hticksError
  obtain ⟨hd₁, hd₂⟩ := abs_le.mp hhalf
  refine ⟨by omega, ?_, ?_⟩
  · have hbound : c * ((time - update.handled) / 1000 + (m + 500 * r)) ≤
        c * (2 ^ 25 * 10 ^ 6 + 500 * 2 ^ 23) :=
      mul_le_mul_of_nonneg_left (by linarith) hcpos
    have hcast : (counted : ℚ) + ticks ≤ 2 ^ 26 * freq.GetSystemTickFrequency := by
      rw [hc] at *
      linarith
    exact_mod_cast hcast
  · -- what is left is what the round trip and the microseconds leave
    have herror : |c * ((time - update.handled) / 1000 + (m + 500 * r) -
        (time - started) / 1000)| ≤ c * (asymmetry + 1) := by
      rw [abs_mul, abs_of_nonneg hcpos]
      refine mul_le_mul_of_nonneg_left ?_ hcpos
      rw [abs_le]
      constructor <;> linarith
    obtain ⟨he₁, he₂⟩ := abs_le.mp herror
    rw [abs_le]
    constructor <;> linarith

/-- `getSyncClockFrames` of a client at a time, after updates. -/
def framesAt (freq : FrameTicks) (console : Console) (started : ℤ) (updates : List ClockUpdate)
    (time : ℤ) : UInt64 :=
  getSyncClockFrames freq
    (getSyncClockTicks freq console (syncClockStartTick freq console started updates) time)

/-- The last update decides. -/
theorem syncClockStartTick_of_ne_nil (freq : FrameTicks) (console : Console) (started : ℤ)
    {updates : List ClockUpdate} (h : updates ≠ []) :
    ∃ update ∈ updates, syncClockStartTick freq console started updates =
      handleToC_SyncClockUpdate freq console started update := by
  refine ⟨updates.getLast h, List.getLast_mem h, ?_⟩
  rw [syncClockStartTick]
  conv_lhs => rw [← List.dropLast_append_getLast h]
  rw [List.foldl_append, List.foldl_cons, List.foldl_nil]

/-- The frame count of a client is that of the time that the server has run. -/
theorem framesAt_error (freq : FrameTicks) (console : Console) {started time : ℤ}
    {updates : List ClockUpdate} {asymmetry : ℚ} (hupdates : updates ≠ [])
    (hwithin : ∀ update ∈ updates, update.Within started asymmetry ∧ update.handled ≤ time)
    (hrunning : time ≤ started + 2 ^ 25 * 10 ^ 9) :
    ∃ n : ℕ, (framesAt freq console started updates time).toNat = n % cycleFrames ∧
      (n : ℚ) ≤ 60 / 10 ^ 6 * ((time - started) / 1000 + (asymmetry + 1)) +
          4 / freq.ticksPerPart ∧
      60 / 10 ^ 6 * ((time - started) / 1000 - (asymmetry + 1)) - 1 - 4 / freq.ticksPerPart ≤ n := by
  obtain ⟨update, hmem, hlast⟩ := syncClockStartTick_of_ne_nil freq console started hupdates
  obtain ⟨hupdate, htime⟩ := hwithin update hmem
  obtain ⟨hpos, hlong, herror⟩ := update_error freq console hupdate htime hrunning
  rw [← hlast] at hpos hlong herror
  obtain ⟨ticks, hticks⟩ := Int.eq_ofNat_of_zero_le hpos
  rw [hticks] at hlong herror
  obtain ⟨n, hn, hlow, hhigh⟩ := exists_frame freq ticks (by exact_mod_cast hlong)
  refine ⟨n, by rw [framesAt, hticks]; exact hn, ?_⟩
  obtain ⟨f, hf⟩ : ∃ f : ℚ, f = freq.ticksPerPart := ⟨_, rfl⟩
  have hfpos : 0 < f := by
    rw [hf]
    exact_mod_cast freq.moves
  have hlowq : f * n ≤ ticks := by
    rw [hf]
    exact_mod_cast hlow
  have hhighq : (ticks : ℚ) ≤ f * (n + 1) := by
    rw [hf]
    exact_mod_cast hhigh
  have hfour : f * (4 / f) = 4 := mul_div_cancel₀ 4 hfpos.ne'
  rw [frequency_eq freq, ← hf, Int.cast_natCast] at herror
  rw [← hf]
  push_cast at herror
  obtain ⟨hbelow, habove⟩ := abs_le.mp herror
  constructor
  · refine le_of_mul_le_mul_left ?_ hfpos
    calc f * n ≤ ticks := hlowq
      _ ≤ f * (60 / 10 ^ 6 * ((time - started) / 1000 + (asymmetry + 1))) + 4 := by linarith
      _ = f * (60 / 10 ^ 6 * ((time - started) / 1000 + (asymmetry + 1)) + 4 / f) := by
        rw [mul_add f _ (4 / f), hfour]
  · refine le_of_mul_le_mul_left ?_ hfpos
    calc f * (60 / 10 ^ 6 * ((time - started) / 1000 - (asymmetry + 1)) - 1 - 4 / f)
        = f * (60 / 10 ^ 6 * ((time - started) / 1000 - (asymmetry + 1))) - f - 4 := by
          rw [mul_sub f _ (4 / f), mul_sub f _ 1, mul_one, hfour]
      _ ≤ ticks - f := by linarith
      _ ≤ f * n := by linarith

/-- Two clients that have handled updates count the same frames at every time, up to a frame,
eight ticks and what their round trips are not twice the way down, around the cycle of four
hours. -/
theorem clocks_agree (freq : FrameTicks) (one other : Console) (started time : ℤ)
    (updates updates' : List ClockUpdate) (asymmetry asymmetry' : ℚ)
    (hupdates : updates ≠ []) (hupdates' : updates' ≠ [])
    (hwithin : ∀ update ∈ updates, update.Within started asymmetry ∧ update.handled ≤ time)
    (hwithin' : ∀ update ∈ updates', update.Within started asymmetry' ∧ update.handled ≤ time)
    (hrunning : time ≤ started + 2 ^ 25 * 10 ^ 9) :
    ∃ n n' : ℕ, (framesAt freq one started updates time).toNat = n % cycleFrames ∧
      (framesAt freq other started updates' time).toNat = n' % cycleFrames ∧
      |(n : ℚ) - n'| ≤
        60 / 10 ^ 6 * (asymmetry + asymmetry' + 2) + 1 + 8 / freq.ticksPerPart := by
  obtain ⟨n, hn, hhigh, hlow⟩ := framesAt_error freq one hupdates hwithin hrunning
  obtain ⟨n', hn', hhigh', hlow'⟩ := framesAt_error freq other hupdates' hwithin' hrunning
  refine ⟨n, n', hn, hn', ?_⟩
  have height : (8 : ℚ) / freq.ticksPerPart = 4 / freq.ticksPerPart + 4 / freq.ticksPerPart := by
    ring
  rw [height, abs_le]
  constructor <;> linarith

/-- An update that takes 20 milliseconds, with a last round trip of 50. -/
def someUpdate : ClockUpdate := ⟨5000000000, 5020000000, 50⟩

/-- It is off by 5 milliseconds. -/
theorem someUpdate_within : someUpdate.Within 0 5000 where
  started_le := by decide
  sent_le := by decide
  sent_le_handled := by decide
  roundTrip_lt := by decide
  half := by
    rw [show someUpdate.lastRoundTripTime.toNat = 50 from rfl,
      show someUpdate.handled - someUpdate.sent = 20000000 from rfl]
    norm_num

/-- Two consoles that started at different times agree up to a frame and a half. -/
theorem clocks_agree_consoles : ∃ n n' : ℕ,
    (framesAt consoleFrequency ⟨0⟩ 0 [someUpdate] 6000000000).toNat = n % cycleFrames ∧
      (framesAt consoleFrequency ⟨4000000000⟩ 0 [someUpdate] 6000000000).toNat =
        n' % cycleFrames ∧
      |(n : ℚ) - n'| ≤ 60 / 10 ^ 6 * (5000 + 5000 + 2) + 1 + 8 / consoleFrequency.ticksPerPart := by
  have hwithin : ∀ update ∈ [someUpdate],
      update.Within 0 5000 ∧ update.handled ≤ 6000000000 := by
    intro update hupdate
    rw [List.mem_singleton.mp hupdate]
    exact ⟨someUpdate_within, by decide⟩
  exact clocks_agree consoleFrequency ⟨0⟩ ⟨4000000000⟩ 0 6000000000 [someUpdate] [someUpdate]
    5000 5000 (by decide) (by decide) hwithin hwithin (by decide)

end BfMultiplayer.SyncClock

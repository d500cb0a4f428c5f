import BfMultiplayer.FloatRounding
import BfMultiplayer.GuardedRuns
import BfMultiplayer.Packets
import BfMultiplayer.SystemTicks

/-!
# The interval of the remote pose

A remote pose is reached after the running average of the ticks between its
packets, a division by two that drops the rest. Packets that are handled in one
tick halve the interval, and nothing keeps it above zero. The frequency of the
system tick is a parameter.
-/

namespace BfMultiplayer.PoseInterval

open FloatRounding GuardedRuns SystemTicks
open Packets (Vector3f)

/-- A frequency of whole ticks for a millisecond, where a `float` holds the ticks of 250
milliseconds. -/
abbrev MsTicks := TickFrequency 1000 (2 ^ 26)

/-- `(nn::os::GetSystemTickFrequency() / 1000.f) * ms`. -/
def floatTicks (freq : MsTicks) (ms : ℤ) : ℚ :=
  toFloat (toFloat (toFloat freq.GetSystemTickFrequency / 1000) * ms)

/-- `sead::Quatf`, by its bits. -/
structure Quatf where
  /-- First imaginary component. -/
  x : UInt32
  /-- Second imaginary component. -/
  y : UInt32
  /-- Third imaginary component. -/
  z : UInt32
  /-- Real component. -/
  w : UInt32
  deriving DecidableEq

/-- `PuppetPoseData`, with the bits of each `float`. -/
structure PuppetPoseData where
  /-- `trans`. -/
  trans : Vector3f
  /-- `quat`. -/
  quat : Quatf
  /-- `animRate`. -/
  animRate : UInt32
  /-- `blendWeights`. -/
  blendWeights : Fin 6 → UInt32
  /-- `isSurfingRaidon`. -/
  isSurfingRaidon : Bool

/-- The members of `PlayerData` that `handlePosePacket` is about. -/
structure PlayerData where
  /-- `mPoseData`. -/
  mPoseData : PuppetPoseData
  /-- `mLastTrans`. -/
  mLastTrans : Vector3f
  /-- `mLastQuat`. -/
  mLastQuat : Quatf
  /-- `mLastAnimRate`. -/
  mLastAnimRate : UInt32
  /-- `mLastBlendWeights`. -/
  mLastBlendWeights : Fin 6 → UInt32
  /-- `mLastPoseUpdateTimestamp`. -/
  mLastPoseUpdateTimestamp : ℤ
  /-- `mPoseUpdateIntervalTicks`. -/
  mPoseUpdateIntervalTicks : ℤ

/-- A new player. The members without an initial value are what the memory holds. -/
def newPlayer (freq : MsTicks) (memory : PuppetPoseData) : PlayerData where
  mPoseData := ⟨⟨0, 0, 0⟩, ⟨0, 0, 0, 0x3F800000⟩, 0xBF800000, memory.blendWeights, false⟩
  mLastTrans := memory.trans
  mLastQuat := memory.quat
  mLastAnimRate := 0x3F800000
  mLastBlendWeights := fun _ => 0
  mLastPoseUpdateTimestamp := 0
  mPoseUpdateIntervalTicks := truncate (floatTicks freq 200)

/-- `interval` in `handlePosePacket`, from the ticks since the last packet. -/
def interval (freq : MsTicks) (ticks : ℤ) : ℤ :=
  if floatTicks freq 250 < toFloat ticks then truncate (floatTicks freq 120) else ticks

/-- `PlayerData::handlePosePacket`, which reads the system tick twice. -/
def handlePosePacket (freq : MsTicks) (player : PlayerData) (isInSingleModeScene : Bool)
    (data : PuppetPoseData) (first second : ℤ) : PlayerData :=
  if isInSingleModeScene then
    { mPoseData := data
      mLastTrans := player.mPoseData.trans
      mLastQuat := player.mPoseData.quat
      mLastAnimRate := player.mPoseData.animRate
      mLastBlendWeights := player.mPoseData.blendWeights
      mLastPoseUpdateTimestamp := second
      mPoseUpdateIntervalTicks := (player.mPoseUpdateIntervalTicks +
        interval freq (first - player.mLastPoseUpdateTimestamp)).tdiv 2 }
  else player

/-- `progress` in `PlayerData::update`. There is none when the divisor is zero. -/
def progress (player : PlayerData) (tick : ℤ) : Option ℚ :=
  let localTick := tick - player.mLastPoseUpdateTimestamp
  let divisor := toFloat player.mPoseUpdateIntervalTicks
  if divisor = 0 then none
  else
    let quotient := toFloat (toFloat localTick / divisor)
    some (if 1 < quotient then 1 else quotient)

/-- A player and the system tick. -/
structure State where
  /-- The system tick. -/
  tick : ℕ
  /-- The player. -/
  player : PlayerData

/-- A pose packet, after some ticks. -/
structure Packet where
  /-- Ticks until the first reading. -/
  wait : ℕ
  /-- Ticks between the two readings. -/
  handling : ℕ
  /-- `MultiplayerManager::isInSingleModeScene`. -/
  isInSingleModeScene : Bool
  /-- The pose. -/
  data : PuppetPoseData

/-- A packet is handled. -/
def receive (freq : MsTicks) (s : State) (packet : Packet) : Option State :=
  let first := s.tick + packet.wait
  let second := first + packet.handling
  some ⟨second, handlePosePacket freq s.player packet.isInSingleModeScene packet.data first second⟩

/-- The start, at the tick zero. -/
def start (freq : MsTicks) (memory : PuppetPoseData) : State := ⟨0, newPlayer freq memory⟩

/-- The interval can be used: it is positive and at most 250 milliseconds, and gives a progress. -/
structure Usable (freq : MsTicks) (s : State) : Prop where
  /-- The interval is positive. -/
  positive : 0 < s.player.mPoseUpdateIntervalTicks
  /-- The interval is at most 250 milliseconds. -/
  short : s.player.mPoseUpdateIntervalTicks ≤ 250 * freq.ticksPerPart
  /-- The progress divides by a number other than zero. -/
  divides : ∀ tick, (progress s.player tick).isSome

/-- A packet is handled in the tick of the one before, while the interval is one tick. -/
def Vanishes (s : State) (packet : Packet) : Prop :=
  packet.isInSingleModeScene = true ∧ s.player.mPoseUpdateIntervalTicks = 1 ∧
    (s.tick + packet.wait : ℕ) = s.player.mLastPoseUpdateTimestamp

instance (s : State) (packet : Packet) : Decidable (Vanishes s packet) :=
  inferInstanceAs (Decidable (_ ∧ _ ∧ _))

/-- The ticks of up to 250 milliseconds are exact. -/
theorem floatTicks_eq (freq : MsTicks) (ms : ℤ) (hpos : 0 ≤ ms) (h : ms ≤ 250) :
    floatTicks freq ms = ((freq.ticksPerPart * ms : ℤ) : ℚ) := by
  have hdigits := freq.fits
  have hfrequency : toFloat freq.GetSystemTickFrequency = 1000 * (freq.ticksPerPart : ℚ) := by
    have hfits : 125 * freq.ticksPerPart < 2 ^ 24 := by omega
    have hsame := roundFloat_of_digits hfits 3
    have hproduct : ((125 * freq.ticksPerPart : ℕ) : ℚ) * 2 ^ (3 : ℤ) =
        ((1000 * freq.ticksPerPart : ℕ) : ℚ) := by
      push_cast
      ring
    rw [hproduct] at hsame
    rw [toFloat, TickFrequency.GetSystemTickFrequency, hsame]
    push_cast
    rfl
  have hmillisecond : toFloat ((freq.ticksPerPart : ℤ) : ℚ) = (freq.ticksPerPart : ℤ) :=
    toFloat_int (by omega) (by omega)
  have hticks : (freq.ticksPerPart * ms : ℤ) ≤ freq.ticksPerPart * 250 :=
    mul_le_mul_of_nonneg_left h (by omega)
  rw [floatTicks, hfrequency, mul_div_cancel_left₀ _ (by norm_num),
    ← Int.cast_natCast freq.ticksPerPart, hmillisecond, ← Int.cast_mul]
  exact toFloat_int (mul_nonneg (by omega) hpos) (by omega)

/-- The comparison with 250 milliseconds is exact. -/
theorem floatTicks_lt_iff (freq : MsTicks) {ticks : ℤ} (h : 0 ≤ ticks) :
    floatTicks freq 250 < toFloat ticks ↔ 250 * (freq.ticksPerPart : ℤ) < ticks := by
  have hdigits := freq.fits
  rw [floatTicks_eq freq 250 (by norm_num) le_rfl, mul_comm]
  constructor
  · intro hlt
    by_contra hle
    rw [toFloat_int h (by omega), Int.cast_lt] at hlt
    exact hle hlt
  · intro hlt
    have hnext : toFloat ((250 * freq.ticksPerPart + 1 : ℤ) : ℚ) =
        ((250 * freq.ticksPerPart + 1 : ℤ) : ℚ) :=
      toFloat_int (by omega) (by omega)
    have hmono : toFloat ((250 * freq.ticksPerPart + 1 : ℤ) : ℚ) ≤ toFloat ticks :=
      roundFloat_mono (by norm_num) (Int.cast_pos.mpr (by omega)) (Int.cast_le.mpr hlt)
    calc ((250 * freq.ticksPerPart : ℤ) : ℚ)
        < ((250 * freq.ticksPerPart + 1 : ℤ) : ℚ) := Int.cast_lt.mpr (by omega)
      _ ≤ toFloat ticks := by rwa [hnext] at hmono

/-- The interval of a packet in whole ticks. -/
theorem interval_eq (freq : MsTicks) {ticks : ℤ} (h : 0 ≤ ticks) :
    interval freq ticks =
      if 250 * (freq.ticksPerPart : ℤ) < ticks then 120 * (freq.ticksPerPart : ℤ) else ticks := by
  rw [interval, floatTicks_eq freq 120 (by norm_num) (by norm_num), truncate_int]
  exact if_congr (floatTicks_lt_iff freq h) (mul_comm _ _) rfl

/-- The interval of a packet is at most 250 milliseconds, and zero only for packets in one tick. -/
theorem interval_bounds (freq : MsTicks) {ticks : ℤ} (h : 0 ≤ ticks) :
    0 ≤ interval freq ticks ∧ interval freq ticks ≤ 250 * freq.ticksPerPart ∧
      (interval freq ticks = 0 ↔ ticks = 0) := by
  have hmoves := freq.moves
  rw [interval_eq freq h]
  split_ifs <;> omega

/-- A positive interval gives a progress. -/
theorem progress_isSome {player : PlayerData} (h : 0 < player.mPoseUpdateIntervalTicks)
    (tick : ℤ) : (progress player tick).isSome := by
  have hdivisor : 0 < toFloat player.mPoseUpdateIntervalTicks :=
    roundFloat_pos (by norm_num) (Int.cast_pos.mpr h)
  rw [progress, if_neg hdivisor.ne']
  rfl

/-- The interval decides whether a state is usable. -/
theorem usable_iff {freq : MsTicks} {s : State} :
    Usable freq s ↔ 0 < s.player.mPoseUpdateIntervalTicks ∧
      s.player.mPoseUpdateIntervalTicks ≤ 250 * freq.ticksPerPart :=
  ⟨fun h => ⟨h.positive, h.short⟩, fun h => ⟨h.1, h.2, progress_isSome h.1⟩⟩

/-- The average of two intervals is no longer than a bound of both. -/
theorem average_le {old new bound : ℤ} (hold : 0 ≤ old) (hnew : 0 ≤ new) (hold' : old ≤ bound)
    (hnew' : new ≤ bound) : 0 ≤ (old + new).tdiv 2 ∧ (old + new).tdiv 2 ≤ bound := by
  rw [Int.tdiv_eq_ediv_of_nonneg (by omega)]
  omega

/-- The average of a positive interval and a new one vanishes only for one tick and none. -/
theorem average_pos_iff {old new : ℤ} (hold : 0 < old) (hnew : 0 ≤ new) :
    0 < (old + new).tdiv 2 ↔ ¬(old = 1 ∧ new = 0) := by
  rw [Int.tdiv_eq_ediv_of_nonneg (by omega)]
  omega

/-- The last packet was handled at a tick that has passed, and the interval lies between zero and
250 milliseconds. -/
structure Bounded (freq : MsTicks) (s : State) : Prop where
  /-- The tick of the last packet has passed. -/
  timestamp : s.player.mLastPoseUpdateTimestamp ≤ s.tick
  /-- The interval is not negative. -/
  nonneg : 0 ≤ s.player.mPoseUpdateIntervalTicks
  /-- The interval is at most 250 milliseconds. -/
  short : s.player.mPoseUpdateIntervalTicks ≤ 250 * freq.ticksPerPart

/-- The ticks up to a packet are not negative. -/
theorem Bounded.ticks_nonneg {freq : MsTicks} {s : State} (h : Bounded freq s)
    (packet : Packet) :
    0 ≤ ((s.tick + packet.wait : ℕ) : ℤ) - s.player.mLastPoseUpdateTimestamp := by
  have htimestamp := h.timestamp
  omega

/-- A packet keeps these bounds. -/
theorem receive_bounded {freq : MsTicks} {s t : State} {packet : Packet} (h : Bounded freq s)
    (hreceive : receive freq s packet = some t) : Bounded freq t := by
  have htimestamp := h.timestamp
  cases hreceive
  cases hscene : packet.isInSingleModeScene with
  | false =>
    refine ⟨?_, h.nonneg, h.short⟩
    dsimp only [handlePosePacket]
    rw [if_neg Bool.false_ne_true]
    omega
  | true =>
    obtain ⟨hnonneg, hbound, -⟩ := interval_bounds freq (h.ticks_nonneg packet)
    obtain ⟨havg, hle⟩ := average_le h.nonneg hnonneg h.short hbound
    exact ⟨le_rfl, havg, hle⟩

/-- A packet keeps the interval usable exactly when it does not vanish. -/
theorem receive_usable_iff {freq : MsTicks} {s t : State} {packet : Packet}
    (hbounded : Bounded freq s) (h : Usable freq s) (hreceive : receive freq s packet = some t) :
    Usable freq t ↔ ¬Vanishes s packet := by
  have hkept := receive_bounded hbounded hreceive
  cases hreceive
  rw [usable_iff, and_iff_left hkept.short, Vanishes]
  dsimp only [handlePosePacket]
  cases packet.isInSingleModeScene with
  | false => exact iff_of_true h.positive fun hvanish => nomatch hvanish.1
  | true =>
    obtain ⟨hnonneg, -, hzero⟩ := interval_bounds freq (hbounded.ticks_nonneg packet)
    rw [if_pos rfl, and_iff_right rfl]
    dsimp only
    rw [average_pos_iff h.positive hnonneg, hzero, sub_eq_zero]

/-- The first interval is 200 milliseconds. -/
theorem start_interval (freq : MsTicks) (memory : PuppetPoseData) :
    (start freq memory).player.mPoseUpdateIntervalTicks = 200 * freq.ticksPerPart := by
  rw [start, newPlayer, floatTicks_eq freq 200 (by norm_num) (by norm_num), truncate_int,
    mul_comm]

/-- The bounds hold at the start. -/
theorem start_bounded (freq : MsTicks) (memory : PuppetPoseData) :
    Bounded freq (start freq memory) := by
  have hinterval := start_interval freq memory
  exact ⟨le_rfl, by omega, by omega⟩

/-- In every run the interval stays between zero and 250 milliseconds. -/
theorem run_bounded {freq : MsTicks} {memory : PuppetPoseData} {packets : List Packet}
    {t : State} (hrun : run (receive freq) (start freq memory) packets = some t) :
    Bounded freq t :=
  run_invariant_of_step (fun _ _ _ => receive_bounded) (start_bounded freq memory) hrun

/-- The interval is usable after every packet of a run exactly when no packet is handled in the
tick of the one before while the interval is one tick. -/
theorem usable_throughout_iff (freq : MsTicks) (memory : PuppetPoseData)
    (packets : List Packet) :
    Throughout (Usable freq) (receive freq) (start freq memory) packets ↔
      Along (fun s packet => ¬Vanishes s packet) (receive freq) (start freq memory) packets := by
  have hmoves := freq.moves
  have hinterval := start_interval freq memory
  have hstart : Usable freq (start freq memory) := usable_iff.mpr ⟨by omega, by omega⟩
  exact throughout_iff_along_of_invariant (fun _ _ _ => receive_bounded)
    (fun _ _ _ => receive_usable_iff) (fun _ _ hnone => nomatch hnone)
    (start_bounded freq memory) hstart

/-- A packet is handled without any tick. -/
def InOneTick (packet : Packet) : Prop :=
  packet.wait = 0 ∧ packet.handling = 0 ∧ packet.isInSingleModeScene = true

/-- Each packet that is handled in the tick of the one before halves the interval. -/
theorem inOneTick_interval (freq : MsTicks) {s : State} {packets : List Packet}
    (hall : ∀ packet ∈ packets, InOneTick packet)
    (htick : s.player.mLastPoseUpdateTimestamp = s.tick)
    (hnonneg : 0 ≤ s.player.mPoseUpdateIntervalTicks) :
    (run (receive freq) s packets).map (fun t => t.player.mPoseUpdateIntervalTicks) =
      some (s.player.mPoseUpdateIntervalTicks / 2 ^ packets.length) := by
  induction packets generalizing s with
  | nil => rw [List.length_nil, pow_zero, Int.ediv_one]; rfl
  | cons packet packets ih =>
    obtain ⟨hwait, hhandling, hscene⟩ := hall packet List.mem_cons_self
    have hmoves := freq.moves
    have hinterval : interval freq 0 = 0 := by
      rw [interval_eq freq le_rfl, if_neg (by omega)]
    have hhalf : (s.player.mPoseUpdateIntervalTicks + 0).tdiv 2 =
        s.player.mPoseUpdateIntervalTicks / 2 := by
      rw [add_zero, Int.tdiv_eq_ediv_of_nonneg hnonneg]
    rw [run_cons, receive, handlePosePacket, hwait, hhandling, if_pos hscene, Nat.add_zero,
      htick, sub_self, hinterval, hhalf, Option.bind_some]
    rw [ih (fun other hmem => hall other (List.mem_cons_of_mem packet hmem)) rfl
      (Int.ediv_nonneg hnonneg (by norm_num))]
    dsimp only
    rw [Int.ediv_ediv_of_nonneg (by norm_num), List.length_cons, pow_succ']

/-- A tick of 19.2 MHz. -/
def tickFrequency : MsTicks := ⟨19200, by decide, by decide⟩

/-- A pose without rotation. -/
def unitPose : PuppetPoseData := ⟨⟨0, 0, 0⟩, ⟨0, 0, 0, 0x3F800000⟩, 0, fun _ => 0, false⟩

/-- A packet after ten seconds, and 22 more in the same tick. -/
def burst : List Packet :=
  ⟨192000000, 0, true, unitPose⟩ :: List.replicate 22 ⟨0, 0, true, unitPose⟩

/-- After the burst the interval is zero. -/
theorem burst_vanishes :
    (run (receive tickFrequency) (start tickFrequency unitPose) burst).map
        (fun t => t.player.mPoseUpdateIntervalTicks) = some 0 ∧
      ¬Throughout (Usable tickFrequency) (receive tickFrequency) (start tickFrequency unitPose)
        burst := by
  have hinterval : interval tickFrequency 192000000 = 120 * 19200 := by
    rw [interval_eq tickFrequency (by norm_num), if_pos (by decide)]
    rfl
  have hfirst : ∃ s, receive tickFrequency (start tickFrequency unitPose)
      ⟨192000000, 0, true, unitPose⟩ = some s ∧ s.player.mPoseUpdateIntervalTicks = 3072000 ∧
        s.player.mLastPoseUpdateTimestamp = s.tick := by
    refine ⟨_, rfl, ?_, rfl⟩
    change ((start tickFrequency unitPose).player.mPoseUpdateIntervalTicks +
      interval tickFrequency 192000000).tdiv 2 = 3072000
    rw [start_interval, hinterval]
    rfl
  obtain ⟨s, hs, hticks, htick⟩ := hfirst
  have hall : ∀ packet ∈ List.replicate 22 ⟨0, 0, true, unitPose⟩, InOneTick packet := by
    intro packet hmem
    rw [List.eq_of_mem_replicate hmem]
    exact ⟨rfl, rfl, rfl⟩
  have hzero : (run (receive tickFrequency) (start tickFrequency unitPose) burst).map
      (fun t => t.player.mPoseUpdateIntervalTicks) = some 0 := by
    rw [burst, run_cons, hs, Option.bind_some,
      inOneTick_interval tickFrequency hall htick (by omega), hticks]
    rfl
  refine ⟨hzero, fun h => ?_⟩
  obtain ⟨t, hrun, hvanished⟩ := Option.map_eq_some_iff.mp hzero
  have hpos := (h.2 t hrun).positive
  omega

end BfMultiplayer.PoseInterval

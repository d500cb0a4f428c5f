import BfMultiplayer.PacketRelay

/-!
# The update of the disaster controller

The host writes the members of its disaster controller into a packet, a client
assigns those that it receives to its own controller. The nerve crosses as its
offset in the main module. The host does not write `mDisableClock`, and the
client assigns what the memory of the packet happened to hold there.
-/

namespace BfMultiplayer.DisasterUpdate

open ByteBuffer CLayout Channels PacketCodec DecoderBounds WireRoundTrip MemoryFields
open Packets ServerState ServerHandlers EventLoopRules ClientLinks ClientMap PacketRelay

/-- `uintptr_t`. -/
abbrev Address := UInt64

/-- The members of `DisasterModeControllerInternalUpdateData`. -/
inductive Member where
  | mFramesOfProsperityTransition
  | mFramesOfProsperity
  | mFramesOfAnticipationTransition
  | mFramesOfAnticipation
  | mFramesOfDisasterTransition
  | mFramesOfDisaster
  | mFramesUntilDisaster
  | mProgressFrames
  | mDisableClock
  | mIsRaining
  | mPostBossPeaceTime
  | isNewNerve
  | controllerNerve
  deriving DecidableEq

/-- The members in the order of their declaration. -/
def members : List Member :=
  [.mFramesOfProsperityTransition, .mFramesOfProsperity, .mFramesOfAnticipationTransition,
    .mFramesOfAnticipation, .mFramesOfDisasterTransition, .mFramesOfDisaster,
    .mFramesUntilDisaster, .mProgressFrames, .mDisableClock, .mIsRaining, .mPostBossPeaceTime,
    .isNewNerve, .controllerNerve]

/-- The size of a member: an `int`, a `bool` or a pointer. -/
def Member.width : Member → ℕ
  | .mDisableClock => 1
  | .mIsRaining => 1
  | .isNewNerve => 1
  | .controllerNerve => 8
  | _ => 4

/-- Where a member is. -/
def Member.offset (member : Member) : ℕ :=
  alignUp (endOffset 0 ((members.takeWhile (· ≠ member)).map fun other => scalar other.width))
    member.width

-- the members make the payload
example : struct (members.map fun member => scalar member.width) =
    disasterModeControllerInternalUpdateData := rfl

/-- The size of the payload. -/
def dataSize : ℕ := disasterModeControllerInternalUpdateData.size

/-- `DisasterModeControllerInternalUpdateData`, as the bytes it occupies. -/
abbrev Data := Buffer dataSize

/-- Assign to a member. -/
def Data.set (data : Data) (member : Member) (n : ℕ) : Data :=
  writeNat data member.offset member.width n

/-- The value of a member. -/
def get (data : List UInt8) (member : Member) : ℕ :=
  ofLittleEndian ((data.drop member.offset).take member.width)

/-- The members of `DisasterModeController` that a client assigns. An `int` is its bits. -/
structure ControllerFields where
  /-- Length of the transition to prosperity. -/
  mFramesOfProsperityTransition : UInt32
  /-- Length of prosperity. -/
  mFramesOfProsperity : UInt32
  /-- Length of the transition to anticipation. -/
  mFramesOfAnticipationTransition : UInt32
  /-- Length of anticipation. -/
  mFramesOfAnticipation : UInt32
  /-- Length of the transition to the disaster. -/
  mFramesOfDisasterTransition : UInt32
  /-- Length of the disaster. -/
  mFramesOfDisaster : UInt32
  /-- Frames that are left. -/
  mFramesUntilDisaster : UInt32
  /-- Frames that are over. -/
  mProgressFrames : UInt32
  /-- Whether the clock stands. -/
  mDisableClock : Bool
  /-- Whether it rains. -/
  mIsRaining : Bool
  /-- Peace after a boss. -/
  mPostBossPeaceTime : UInt32
  deriving DecidableEq

/-- `DisasterModeController`. -/
structure DisasterModeController extends ControllerFields where
  /-- `getNerveKeeper()->getCurrentNerve()`. -/
  nerve : Address
  deriving DecidableEq

/-- What `updateLocal` reads and keeps in `PlayerData`. -/
structure PlayerData where
  /-- Whether this client is the host. -/
  mIsHostClient : Bool
  /-- Frames. -/
  mFrameCount : ℤ
  /-- The nerve of the last frame. -/
  mLastDisasterModeControllerNrv : Address

/-- The payload that `updateLocal` fills, in memory that holds anything; `base` is
`getMainModule()->range().start()`. -/
def fillData (memory : Data) (base : Address) (controller : DisasterModeController)
    (isNewNerve : Bool) : Data :=
  let data := memory.set .mFramesOfDisaster controller.mFramesOfDisaster.toNat
  let data := data.set .mFramesOfDisasterTransition controller.mFramesOfDisasterTransition.toNat
  let data := data.set .mFramesOfAnticipation controller.mFramesOfAnticipation.toNat
  let data := data.set .mFramesOfAnticipationTransition
    controller.mFramesOfAnticipationTransition.toNat
  let data := data.set .mFramesOfProsperity controller.mFramesOfProsperity.toNat
  let data := data.set .mFramesOfProsperityTransition
    controller.mFramesOfProsperityTransition.toNat
  let data := data.set .mProgressFrames controller.mProgressFrames.toNat
  let data := data.set .mFramesUntilDisaster controller.mFramesUntilDisaster.toNat
  let data := data.set .mIsRaining controller.mIsRaining.toNat
  let data := data.set .mPostBossPeaceTime controller.mPostBossPeaceTime.toNat
  let data := data.set .isNewNerve isNewNerve.toNat
  data.set .controllerNerve (controller.nerve - base).toNat

/-- `ServerBound(packetData)`, in memory that holds anything. -/
def serverBound (vtable : VTables) (t : RedistType) (stack : Buffer (sizeofClass t.ServerBound))
    (packetData : List UInt8) : Buffer (sizeofClass t.ServerBound) :=
  writeBytes (setVptr stack (vtable t.ServerBound)) (serverDataOffset t) packetData

/-- The type of the update. -/
abbrev updateType : RedistType := .DisasterModeControllerInternalUpdate

/-- `PlayerData::updateLocal`, from the look at the stage on: the player and the packet that
is sent. -/
def updateLocal (vtable : VTables) (base : Address) (memory : Data)
    (stack : Buffer (sizeofClass updateType.ServerBound)) (player : PlayerData) (mStageIndex : ℤ)
    (controller : Option DisasterModeController) :
    PlayerData × Option (Buffer (sizeofClass updateType.ServerBound)) :=
  if mStageIndex = 0 then (player, none)
  else match controller with
    | none => (player, none)
    | some controller =>
      let isNewNerve := controller.nerve != player.mLastDisasterModeControllerNrv
      let sent :=
        if player.mIsHostClient && (player.mFrameCount % 120 == 0 || isNewNerve) then
          some (serverBound vtable updateType stack
            (firstBytes (fillData memory base controller isNewNerve) dataSize))
        else none
      ({ player with mLastDisasterModeControllerNrv := controller.nerve }, sent)

/-- `getNerveAt`. -/
def getNerveAt (base offset : Address) : Address := base + offset

/-- The offset of `Prosperity`. -/
def prosperity : Address := 0x01318b40

/-- The offset of `Disaster`. -/
def disaster : Address := 0x01318b30

/-- The functions of the game that the handler calls on a controller. -/
structure Game where
  /-- `endInstantly(true, true)`. -/
  endInstantly : DisasterModeController → DisasterModeController
  /-- `beginImmediate(true)`. -/
  beginImmediate : DisasterModeController → DisasterModeController
  /-- `updateRainEffects`. -/
  updateRainEffects : DisasterModeController → DisasterModeController

/-- What is known of them: the nerves that they enter, and that they leave the members that the
handler has assigned. -/
structure Game.Behaves (game : Game) (base : Address) : Prop where
  /-- It enters `Prosperity`. -/
  endInstantly : ∀ c, game.endInstantly c = { c with nerve := getNerveAt base prosperity }
  /-- It enters `Disaster`. -/
  beginImmediate : ∀ c, game.beginImmediate c = { c with nerve := getNerveAt base disaster }
  /-- It changes the looks. -/
  updateRainEffects : ∀ c, game.updateRainEffects c = c

/-- The members that the handler assigns. -/
def receivedFields (data : List UInt8) : ControllerFields where
  mFramesOfDisaster := UInt32.ofNat (get data .mFramesOfDisaster)
  mFramesOfDisasterTransition := UInt32.ofNat (get data .mFramesOfDisasterTransition)
  mFramesOfAnticipation := UInt32.ofNat (get data .mFramesOfAnticipation)
  mFramesOfAnticipationTransition := UInt32.ofNat (get data .mFramesOfAnticipationTransition)
  mFramesOfProsperity := UInt32.ofNat (get data .mFramesOfProsperity)
  mFramesOfProsperityTransition := UInt32.ofNat (get data .mFramesOfProsperityTransition)
  mProgressFrames := UInt32.ofNat (get data .mProgressFrames)
  mFramesUntilDisaster := UInt32.ofNat (get data .mFramesUntilDisaster)
  mDisableClock := get data .mDisableClock != 0
  mIsRaining := get data .mIsRaining != 0
  mPostBossPeaceTime := UInt32.ofNat (get data .mPostBossPeaceTime)

/-- The handler, once it has the controller. -/
def applyUpdate (game : Game) (base : Address) (controller : DisasterModeController)
    (data : List UInt8) : DisasterModeController :=
  let hasRainStateChanged := controller.mIsRaining != (get data .mIsRaining != 0)
  let updated : DisasterModeController := ⟨receivedFields data, controller.nerve⟩
  let controllerNerve := getNerveAt base (UInt64.ofNat (get data .controllerNerve))
  let entered :=
    if get data .isNewNerve != 0 || updated.nerve != controllerNerve then
      if controllerNerve = getNerveAt base prosperity then game.endInstantly updated
      else if controllerNerve = getNerveAt base disaster then game.beginImmediate updated
      else { updated with nerve := controllerNerve }
    else updated
  if hasRainStateChanged then game.updateRainEffects entered else entered

/-- What the handler sees of a client. -/
structure Receiver where
  /-- There is a sequence. -/
  hasSequence : Bool
  /-- `isSequenceSingleModeGameOnlyNrv`. -/
  isSingleMode : Bool
  /-- The stage. -/
  mStageIndex : ℤ
  /-- There is a scene. -/
  hasScene : Bool
  /-- `tryGetController`. -/
  controller : Option DisasterModeController
  /-- The first word of the controller. -/
  vptr : Address
  /-- The word that it points to. -/
  firstEntry : Address

/-- The controller that the handler finds. -/
def Receiver.tryController (receiver : Receiver) : Option DisasterModeController :=
  if receiver.hasSequence && receiver.isSingleMode then
    if receiver.mStageIndex = 0 ∨ receiver.mStageIndex = 9 then none
    else if receiver.hasScene then
      if receiver.vptr = 0 ∨ receiver.firstEntry = 0 then none else receiver.controller
    else none
  else none

/-- `handleToC_DisasterModeControllerInternalUpdate`, with a manager. -/
def handleUpdate (game : Game) (base : Address) (receiver : Receiver)
    (packet : Buffer (sizeofClass updateType.ClientBound)) : Receiver :=
  match receiver.tryController with
  | none => receiver
  | some controller =>
    { receiver with
      controller := some (applyUpdate game base controller (clientGetData updateType packet)) }

/-- After the handler the receiver has the members and, relative to the main modules, the nerve
of the host. -/
def CarriesState (hostBase base : Address) (host : DisasterModeController) (receiver : Receiver) :
    Prop :=
  ∃ controller, receiver.controller = some controller ∧
    controller.toControllerFields = host.toControllerFields ∧
    controller.nerve - base = host.nerve - hostBase

/-- A member is inside of the payload. -/
theorem Member.offset_add_width_le (member : Member) : member.offset + member.width ≤ dataSize := by
  cases member <;> decide

/-- Different members do not overlap. -/
theorem Member.disjoint {member other : Member} (h : member ≠ other) :
    other.offset + other.width ≤ member.offset ∨ member.offset + member.width ≤ other.offset := by
  cases member <;> cases other <;> first | exact absurd rfl h | decide

/-- What was assigned to a member is its value. -/
theorem get_set_self (data : Data) (member : Member) {n : ℕ} (hn : n < 256 ^ member.width) :
    get (firstBytes (data.set member n) dataSize) member = n :=
  readNat_writeNat data member.offset_add_width_le hn

/-- Assigning to a member leaves the others. -/
theorem get_set_of_ne (data : Data) {member other : Member} (h : member ≠ other) (n : ℕ) :
    get (firstBytes (data.set member n) dataSize) other =
      get (firstBytes data dataSize) other := by
  have hkept : readBytes (data.set member n) other.offset other.width =
      readBytes data other.offset other.width :=
    readBytes_writeNat_of_disjoint data member.offset_add_width_le other.offset_add_width_le
      (Member.disjoint h)
  exact congrArg ofLittleEndian hkept

/-- An `int` is read back. -/
theorem get_set_int (data : Data) {member : Member} (hwidth : member.width = 4) (n : UInt32) :
    UInt32.ofNat (get (firstBytes (data.set member n.toNat) dataSize) member) = n := by
  have hlt := n.toNat_lt
  rw [get_set_self data member (by rw [hwidth]; omega), UInt32.ofNat_toNat]

/-- A `bool` is read back. -/
theorem get_set_bool (data : Data) {member : Member} (hwidth : member.width = 1) (b : Bool) :
    (get (firstBytes (data.set member b.toNat) dataSize) member != 0) = b := by
  have hlt := b.toNat_lt
  rw [get_set_self data member (by rw [hwidth]; omega)]
  cases b <;> rfl

/-- A pointer is read back. -/
theorem get_set_pointer (data : Data) {member : Member} (hwidth : member.width = 8) (n : UInt64) :
    UInt64.ofNat (get (firstBytes (data.set member n.toNat) dataSize) member) = n := by
  have hlt := n.toNat_lt
  rw [get_set_self data member (by rw [hwidth]; omega), UInt64.ofNat_toNat]

/-- What the memory of the payload holds in the place of `mDisableClock`. -/
def leftDisableClock (memory : Data) : Bool :=
  get (firstBytes memory dataSize) .mDisableClock != 0

/-- The host's members are received, but for `mDisableClock`. -/
theorem receivedFields_fillData (memory : Data) (base : Address) (host : DisasterModeController)
    (isNewNerve : Bool) :
    receivedFields (firstBytes (fillData memory base host isNewNerve) dataSize) =
      { host.toControllerFields with mDisableClock := leftDisableClock memory } := by
  simp (disch := decide) only [receivedFields, fillData, leftDisableClock, get_set_of_ne,
    get_set_int, get_set_bool]

/-- The offset of the host's nerve is received. -/
theorem get_controllerNerve_fillData (memory : Data) (base : Address)
    (host : DisasterModeController) (isNewNerve : Bool) :
    UInt64.ofNat (get (firstBytes (fillData memory base host isNewNerve) dataSize)
      .controllerNerve) = host.nerve - base :=
  get_set_pointer _ rfl _

/-- The handler leaves the received members and the nerve at the received offset. -/
theorem applyUpdate_eq {game : Game} {base : Address} (hgame : game.Behaves base)
    (controller : DisasterModeController) (data : List UInt8) :
    applyUpdate game base controller data =
      ⟨receivedFields data, getNerveAt base (UInt64.ofNat (get data .controllerNerve))⟩ := by
  unfold applyUpdate
  dsimp only
  have hrain : ∀ (changed : Bool) (c : DisasterModeController),
      (if changed then game.updateRainEffects c else c) = c := by
    intro changed c
    rw [hgame.updateRainEffects, ite_self]
  rw [hrain]
  by_cases henters : (get data .isNewNerve != 0 || controller.nerve !=
      getNerveAt base (UInt64.ofNat (get data .controllerNerve))) = true
  · rw [if_pos henters]
    split
    · rename_i hprosperity
      rw [hgame.endInstantly, hprosperity]
    · split
      · rename_i hdisaster
        rw [hgame.beginImmediate, hdisaster]
      · rfl
  · -- the receiver has the nerve already
    rw [if_neg henters]
    have hsame : controller.nerve = getNerveAt base (UInt64.ofNat (get data .controllerNerve)) := by
      rw [Bool.or_eq_true, not_or, bne_iff_ne, not_not] at henters
      simpa using henters.2
    rw [hsame]

/-- A packet carries the payload that it is made with. -/
theorem serverGetData_serverBound (vtable : VTables) (t : RedistType)
    (stack : Buffer (sizeofClass t.ServerBound)) {packetData : List UInt8}
    (hlength : packetData.length = t.size) :
    serverGetData t (serverBound vtable t stack packetData) = packetData := by
  obtain ⟨-, hoffset, hsize⟩ := serverBound_layout t
  rw [serverGetData, serverBound, hoffset, ← hlength]
  exact readBytes_writeBytes _ (by omega)

/-- What the host sends is filled from its controller. -/
theorem serverGetData_updateLocal {vtable : VTables} {base : Address} {memory : Data}
    {stack sent : Buffer (sizeofClass updateType.ServerBound)} {player : PlayerData}
    {mStageIndex : ℤ} {host : DisasterModeController}
    (hsent : (updateLocal vtable base memory stack player mStageIndex (some host)).2 = some sent) :
    ∃ isNewNerve, serverGetData updateType sent =
      firstBytes (fillData memory base host isNewNerve) dataSize := by
  unfold updateLocal at hsent
  dsimp only at hsent
  split at hsent
  · cases hsent
  · dsimp only at hsent
    split at hsent
    · cases hsent
      exact ⟨_, serverGetData_serverBound vtable updateType stack
        (length_firstBytes _ (Nat.le_refl dataSize))⟩
    · cases hsent

/-- What a payload of the host leaves in a receiver. -/
theorem carriesState_iff {hostBase base : Address} {memory : Data} {host : DisasterModeController}
    {isNewNerve : Bool} {game : Game} (hgame : game.Behaves base) {receiver : Receiver}
    {controller : DisasterModeController} (hfound : receiver.tryController = some controller)
    {packet : Buffer (sizeofClass updateType.ClientBound)}
    (hdata : clientGetData updateType packet =
      firstBytes (fillData memory hostBase host isNewNerve) dataSize) :
    CarriesState hostBase base host (handleUpdate game base receiver packet) ↔
      leftDisableClock memory = host.mDisableClock := by
  have hnerve : getNerveAt base (host.nerve - hostBase) - base = host.nerve - hostBase := by
    rw [getNerveAt, UInt64.add_comm, UInt64.add_sub_cancel]
  rw [handleUpdate, hfound, hdata]
  dsimp only
  rw [applyUpdate_eq hgame, receivedFields_fillData, get_controllerNerve_fillData]
  constructor
  · rintro ⟨_, hcontroller, hfields, -⟩
    cases hcontroller
    exact congrArg ControllerFields.mDisableClock hfields
  · intro hclock
    refine ⟨_, rfl, ?_, hnerve⟩
    dsimp only
    rw [hclock]

/-- An update of the host reaches each other client, and it carries the host's state exactly when
the memory of the payload held the host's `mDisableClock`: all else is written, whatever the
modules' addresses are. -/
theorem update_carries_state_iff (route : Route updateType) (vtable : VTables)
    (hostBase base : Address) (memory : Data)
    (stack sent : Buffer (sizeofClass updateType.ServerBound)) (player : PlayerData)
    (mStageIndex : ℤ) (host : DisasterModeController)
    (hsent : (updateLocal vtable hostBase memory stack player mStageIndex (some host)).2 =
      some sent)
    (game : Game) (hgame : game.Behaves base) (receiver : Receiver)
    (controller : DisasterModeController)
    (hfound : receiver.tryController = some controller) :
    (∃ packet, Reaches route sent packet) ∧
      ∀ packet, Reaches route sent packet →
        (CarriesState hostBase base host (handleUpdate game base receiver packet) ↔
          leftDisableClock memory = host.mDisableClock) := by
  obtain ⟨isNewNerve, hdata⟩ := serverGetData_updateLocal hsent
  refine ⟨exists_reaches route sent, fun packet hreaches => ?_⟩
  exact carriesState_iff hgame hfound (hreaches.clientGetData_eq.trans hdata)

/-- A server with two clients, the first of which is the host. -/
def sampleRoute : Route updateType where
  vtable := numberedTables
  distinct := numberedTables_injective
  fresh := fun _ => Buffer.zero _
  buf := Buffer.zero
  stack := Buffer.zero _
  server := serverWith [0, 1]
  mapped := mapped_serverWith (by decide) (by decide)
  client := ⟨calcEnetAddressHashCode (peerAt 0).address, 0,
    { mPeer := peerAt 0, mHasGreeting := true, mUid := ⟨0, 0⟩ }⟩
  client_mem := List.mem_map.mpr ⟨0, by decide, rfl⟩
  other := ⟨calcEnetAddressHashCode (peerAt 1).address, 1,
    { mPeer := peerAt 1, mHasGreeting := true, mUid := ⟨1, 0⟩ }⟩
  other_mem := List.mem_map.mpr ⟨1, by decide, rfl⟩
  other_ne := fun h => absurd (congrArg ClientNode.ptr h) (by decide)
  receiver := numberedTables
  receiverFresh := fun _ => Buffer.zero _

/-- A host in prosperity with a clock that stands or not, its main module at 0x8000000. -/
def sampleHost (mDisableClock : Bool) : DisasterModeController :=
  ⟨⟨60, 600, 30, 300, 60, 900, 120, 480, mDisableClock, false, 0⟩, getNerveAt 0x8000000 prosperity⟩

/-- A game whose functions do what is known of them and nothing else. -/
def sampleGame (base : Address) : Game where
  endInstantly := fun c => { c with nerve := getNerveAt base prosperity }
  beginImmediate := fun c => { c with nerve := getNerveAt base disaster }
  updateRainEffects := fun c => c

/-- A receiver in a disaster, its main module at 0x9000000. -/
def sampleReceiver : Receiver where
  hasSequence := true
  isSingleMode := true
  mStageIndex := 1
  hasScene := true
  controller := some ⟨⟨0, 0, 0, 0, 0, 0, 0, 0, false, true, 0⟩, getNerveAt 0x9000000 disaster⟩
  vptr := 1
  firstEntry := 1

/-- What the sample host sends from memory of zeros. -/
def sampleSent (mDisableClock : Bool) : Buffer (sizeofClass updateType.ServerBound) :=
  serverBound numberedTables updateType (Buffer.zero _)
    (firstBytes (fillData (Buffer.zero _) 0x8000000 (sampleHost mDisableClock) true) dataSize)

/-- From memory of zeros a running clock is carried. -/
theorem update_carries_state_running :
    (∃ packet, Reaches sampleRoute (sampleSent false) packet) ∧
      ∀ packet, Reaches sampleRoute (sampleSent false) packet →
        (CarriesState 0x8000000 0x9000000 (sampleHost false)
            (handleUpdate (sampleGame 0x9000000) 0x9000000 sampleReceiver packet) ↔
          leftDisableClock (Buffer.zero _) = (sampleHost false).mDisableClock) :=
  update_carries_state_iff sampleRoute numberedTables 0x8000000 0x9000000 (Buffer.zero _)
    (Buffer.zero _) (sampleSent false) ⟨true, 0, 0⟩ 1 (sampleHost false) rfl
    (sampleGame 0x9000000) ⟨fun _ => rfl, fun _ => rfl, fun _ => rfl⟩ sampleReceiver _ rfl

/-- From memory of zeros a clock that stands is not. -/
theorem stopped_clock_is_not_carried :
    (updateLocal numberedTables 0x8000000 (Buffer.zero _) (Buffer.zero _) ⟨true, 0, 0⟩ 1
        (some (sampleHost true))).2 = some (sampleSent true) ∧
      ∃ packet, Reaches sampleRoute (sampleSent true) packet ∧
        ¬CarriesState 0x8000000 0x9000000 (sampleHost true)
          (handleUpdate (sampleGame 0x9000000) 0x9000000 sampleReceiver packet) := by
  have hsent : (updateLocal numberedTables 0x8000000 (Buffer.zero _) (Buffer.zero _) ⟨true, 0, 0⟩
      1 (some (sampleHost true))).2 = some (sampleSent true) := rfl
  obtain ⟨isNewNerve, hdata⟩ := serverGetData_updateLocal hsent
  obtain ⟨packet, hreaches⟩ := exists_reaches sampleRoute (sampleSent true)
  refine ⟨hsent, packet, hreaches, fun hcarries => ?_⟩
  have hclock := (carriesState_iff ⟨fun _ => rfl, fun _ => rfl, fun _ => rfl⟩ rfl
    (hreaches.clientGetData_eq.trans hdata)).mp hcarries
  exact absurd hclock (by decide)

end BfMultiplayer.DisasterUpdate

import BfMultiplayer.ByteBuffer
import Mathlib.Data.Int.Notation

/-!
# Addresses and packets

The data types that cross the wire, with the fields of the source. An `int`
of the source is an integer, since no arithmetic on one is close to its range;
the sizes whose width decides what the code does keep their width. A field
that the source leaves uninitialised on some path is an `Option`, where `none`
is whatever the memory happens to hold.
-/

namespace BfMultiplayer.Packets

open ByteBuffer

/-- The bytes of a C string in front of its terminator. -/
abbrev CString := List UInt8

/-- `nn::account::Uid`, the two words of `m_Storage`. -/
structure Uid where
  /-- First storage word. -/
  word0 : UInt64
  /-- Second storage word. -/
  word1 : UInt64
  deriving DecidableEq

/-- The value-initialised user id. -/
def Uid.zero : Uid := ⟨0, 0⟩

/-- `sizeof(nn::account::Uid)`. -/
def sizeofUid : ℕ := 16

/-- `nn::account::Nickname`, a `char[33]`. -/
abbrev Nickname := Buffer 33

/-- `sead::Vector3f` by the bit patterns of its components. -/
structure Vector3f where
  /-- Bits of the first component. -/
  x : UInt32
  /-- Bits of the second component. -/
  y : UInt32
  /-- Bits of the third component. -/
  z : UInt32
  deriving DecidableEq

/-- `ENetAddress`. -/
structure ENetAddress where
  /-- IPv4 host, in the byte order ENet stores it. -/
  host : UInt32
  /-- UDP port. -/
  port : UInt16
  deriving DecidableEq

/-- `ENetPeer`: the slot of the ENet host, and the address behind it. -/
structure ENetPeer where
  /-- Which peer slot of the host this is; stands for the pointer. -/
  slot : ℕ
  /-- Address of the remote side. -/
  address : ENetAddress
  deriving DecidableEq

/-- The key of the client table, with `std::hash` on integers the identity. -/
def calcEnetAddressHashCode (address : ENetAddress) : ℕ :=
  address.host.toNat ^^^ address.port.toNat

/-- Greeting packet. -/
structure ToS_Hello where
  /-- User id of the greeting client. -/
  uid : Uid
  /-- Its nickname, all 33 bytes. -/
  name : Nickname
  /-- A ghost is kept out of the player list. -/
  isGhost : Bool

/-- Sent when a client enters the single-mode scene. -/
structure ToS_SingleModeSceneEnter where
  /-- Player type shown to the others. -/
  playerType : UInt8
  deriving DecidableEq

/-- Payload of the figure change, redistributed as it is. -/
structure PlayerFigureChangeData where
  /-- The new figure. -/
  playerFigure : UInt8
  deriving DecidableEq

/-- A client reports a collected shine. -/
structure ToS_GoalItemInfo where
  /-- Island of the shine. -/
  islandID : ℤ
  /-- Number of the shine on its island. -/
  shineID : ℤ
  deriving DecidableEq

/-- The server's answer to a report, also used by the replay. -/
structure ToC_GoalItemInfo where
  /-- Who collected. -/
  user : Uid
  /-- Global counter to be updated. -/
  numCollectedGoalItems : ℤ
  /-- New shine data follows. -/
  isCollectNewShine : Bool
  /-- Island of the new shine; not written when nothing is new. -/
  islandID : Option ℤ
  /-- Number of the new shine; not written when nothing is new. -/
  shineID : Option ℤ
  deriving DecidableEq

/-- An island's scenario changed. -/
structure ScenarioUpdateData where
  /-- Name of the island. -/
  islandName : CString
  /-- Its new scenario. -/
  scenario : ℤ
  /-- The flag of `setScenarioID`; the replay does not write it. -/
  unk : Option Bool
  deriving DecidableEq

/-- The tagged union of small map events. -/
inductive MiscMapSyncData where
  /-- Kill an actor by its object id. -/
  | killActorByObjId (objId : CString)
  /-- A shard was collected. -/
  | shardCollect (zoneID shardID : ℤ)
  /-- Dark Bowser's health changed. -/
  | darkBowserHealth (health : ℤ)
  /-- A toad character was unlocked. -/
  | toadUnlock (character : ℤ)
  /-- A tag outside the enumeration. -/
  | other (type : ℤ)
  deriving DecidableEq

/-- A jump panel was flipped. -/
structure JumpFlipData where
  /-- The requested, or the new, state of all panels. -/
  flipState : Bool
  deriving DecidableEq

/-- Pose of a player: its position, and the rest as raw bytes. -/
structure PuppetPoseData where
  /-- Position. -/
  trans : Vector3f
  /-- Rotation, animation rate, blend weights and the surf flag. -/
  rest : List UInt8
  deriving DecidableEq

/-- Size of the data array of a save chunk. -/
def sSaveDataChunkSize : ℕ := 0x2100

/-- One of the eight pieces of a save. -/
structure SaveDataChunk where
  /-- Which piece. -/
  chunkIndex : ℤ
  /-- How many bytes of `data` are used. -/
  size : UInt16
  /-- The bytes. -/
  data : Buffer sSaveDataChunkSize

/-- One player of the list. -/
structure PlayerListDataEntry where
  /-- User id. -/
  user : Uid
  /-- Nickname. -/
  name : Nickname
  /-- Player type. -/
  playerType : UInt8
  /-- Figure. -/
  playerFigure : UInt8
  /-- The player that joined with this list. -/
  isNew : Bool
  /-- Never set by the server. -/
  isGhost : Bool

/-- Packets a client sends; `RedistPacket` payloads the server never looks
into are their bytes. -/
inductive ServerBound where
  | hello (packet : ToS_Hello)
  | log (logType : UInt8) (msg : CString)
  | singleModeSceneEnter (packet : ToS_SingleModeSceneEnter)
  | puppetPose (data : PuppetPoseData)
  | action (data : List UInt8)
  | playerFigureChange (data : PlayerFigureChangeData)
  | goalItemInfo (packet : ToS_GoalItemInfo)
  | phaseUnlock (data : List UInt8)
  | scenarioUpdate (data : ScenarioUpdateData)
  | disasterModeControllerInternalUpdate (data : List UInt8)
  | miscMapSync (data : MiscMapSyncData)
  | jumpFlip (data : JumpFlipData)
  | saveDataChunk (packet : SaveDataChunk)

/-- Packets the server sends; a redistributed payload carries its sender. -/
inductive ClientBound where
  | playerList (entries : List PlayerListDataEntry)
  | puppetPose (sender : Uid) (data : PuppetPoseData)
  | action (sender : Uid) (data : List UInt8)
  | playerFigureChange (sender : Uid) (data : PlayerFigureChangeData)
  | goalItemInfo (packet : ToC_GoalItemInfo)
  | phaseUnlock (sender : Uid) (data : List UInt8)
  | scenarioUpdate (sender : Uid) (data : ScenarioUpdateData)
  | disasterModeControllerInternalUpdate (sender : Uid) (data : List UInt8)
  | syncClockUpdate (microseconds : ℕ)
  | miscMapSync (sender : Uid) (data : MiscMapSyncData)
  | jumpFlip (sender : Uid) (data : JumpFlipData)
  | saveDataChunk (packet : SaveDataChunk)

end BfMultiplayer.Packets

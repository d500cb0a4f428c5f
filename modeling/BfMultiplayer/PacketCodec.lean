import BfMultiplayer.ByteBuffer
import BfMultiplayer.CLayout
import BfMultiplayer.Channels
import BfMultiplayer.Packets
import Mathlib.Data.Fintype.Basic

/-!
# Packet objects and their bytes

A packet on the wire is a range of bytes of its object. A `DataPacket` copies
everything behind its base, padding included, and its extent is computed from
the sizes of the class and of the base. An `ArrayPacket` writes the number of
its entries and then the entries, a `ToS_Log` its type and then its text. A
read that leaves the received bytes is an error of its own beside the aborts of
the source.
-/

namespace BfMultiplayer.PacketCodec

open ByteBuffer CLayout Channels Packets

/-- A virtual table pointer, by its bytes. -/
abbrev Pointer := Buffer 8

/-- Layout of a pointer. -/
def pointer : Layout := scalar 8

/-- `nn::account::Uid`. -/
def uid : Layout := union [array 2 (scalar 8), array 16 (scalar 1)]

/-- `nn::account::Nickname`. -/
def nickname : Layout := array 33 (scalar 1)

/-- `sead::Vector3f`. -/
def vector3f : Layout := struct [scalar 4, scalar 4, scalar 4]

/-- `sead::Quatf`. -/
def quatf : Layout := struct [scalar 4, scalar 4, scalar 4, scalar 4]

/-- `PuppetPoseData`. -/
def puppetPoseData : Layout :=
  struct [vector3f, quatf, scalar 4, array 6 (scalar 4), scalar 1]

/-- `ActionPacketData`. -/
def actionPacketData : Layout := struct [scalar 1, array 127 (scalar 1)]

/-- `PlayerFigureChangeData`. -/
def playerFigureChangeData : Layout := struct [scalar 1]

/-- `PhaseUnlockData`. -/
def phaseUnlockData : Layout :=
  struct ([scalar 4, scalar 1, scalar 4] ++ List.replicate 12 (scalar 1) ++
    List.replicate 7 (scalar 4))

/-- `ScenarioUpdateData`. -/
def scenarioUpdateData : Layout := struct [array 128 (scalar 1), scalar 4, scalar 1]

/-- `DisasterModeControllerInternalUpdateData`. -/
def disasterModeControllerInternalUpdateData : Layout :=
  struct (List.replicate 8 (scalar 4) ++ [scalar 1, scalar 1, scalar 4, scalar 1, scalar 8])

/-- `MiscMapSyncData`. -/
def miscMapSyncData : Layout :=
  struct [scalar 4, union [struct [array 128 (scalar 1)], struct [scalar 4, scalar 4],
    struct [scalar 4], struct [scalar 4]]]

/-- `JumpFlipData`. -/
def jumpFlipData : Layout := struct [scalar 1]

/-- `PlayerListDataEntry`. -/
def playerListDataEntry : Layout :=
  struct [uid, nickname, scalar 1, scalar 1, scalar 1, scalar 1]

/-- The three families of packet classes. -/
inductive Family where
  /-- `DataPacket<T>`, with the members of `T`. -/
  | data (members : List Layout)
  /-- `ToS_Log`. -/
  | log
  /-- `ArrayPacket<T, MaxSize>`. -/
  | array (entry : Layout) (maxSize : ℕ)

/-- The declaration of each class of the channel table. -/
def family : ChannelType → Family
  | .ToS_Hello => .data [uid, nickname, scalar 1]
  | .ToS_Log => .log
  | .ToC_PlayerList => .array playerListDataEntry 32
  | .ToS_SingleModeSceneEnter => .data [scalar 1]
  | .ToS_PuppetPose => .data [puppetPoseData]
  | .ToC_PuppetPose => .data [uid, puppetPoseData]
  | .ToS_Action => .data [actionPacketData]
  | .ToC_Action => .data [uid, actionPacketData]
  | .ToC_PlayerFigureChange => .data [uid, playerFigureChangeData]
  | .ToS_PlayerFigureChange => .data [playerFigureChangeData]
  | .ToS_GoalItemInfo => .data [scalar 4, scalar 4]
  | .ToC_GoalItemInfo => .data [uid, scalar 4, scalar 1, scalar 4, scalar 4]
  | .ToS_PhaseUnlock => .data [phaseUnlockData]
  | .ToC_PhaseUnlock => .data [uid, phaseUnlockData]
  | .ToS_ScenarioUpdate => .data [scenarioUpdateData]
  | .ToC_ScenarioUpdate => .data [uid, scenarioUpdateData]
  | .ToS_DisasterModeControllerInternalUpdate => .data [disasterModeControllerInternalUpdateData]
  | .ToC_DisasterModeControllerInternalUpdate =>
    .data [uid, disasterModeControllerInternalUpdateData]
  | .ToC_SyncClockUpdate => .data [scalar 8]
  | .ToS_MiscMapSync => .data [miscMapSyncData]
  | .ToC_MiscMapSync => .data [uid, miscMapSyncData]
  | .ToS_JumpFlip => .data [jumpFlipData]
  | .ToC_JumpFlip => .data [uid, jumpFlipData]
  | .ToC_CheatPacket => .data [scalar 4, union [struct [vector3f]]]
  | .SaveDataChunk => .data [scalar 4, scalar 2, array sSaveDataChunkSize (scalar 1)]

/-- `sizeof(DataPacket<T>)`: the virtual table pointer alone. -/
def sizeofDataPacket : ℕ := (struct [pointer]).size

/-- `sizeof` of a class of the channel table. -/
def sizeofClass (T : ChannelType) : ℕ :=
  match family T with
  | .data members => (struct (pointer :: members)).size
  | .log => (struct [pointer, pointer, scalar 1]).size
  | .array _ _ => (struct [pointer, scalar 4, pointer, scalar 1]).size

/-- `DataPacket::getSize`. -/
def getSize (T : ChannelType) : ℕ := sizeofClass T - sizeofDataPacket

/-- `ToS_Log`. -/
structure ToS_Log where
  /-- The text, unless the pointer is null. -/
  mData : Option CString
  /-- The type. -/
  mLogType : UInt8
  deriving DecidableEq

/-- `ArrayPacket`. -/
structure ArrayPacket where
  /-- The number of entries. -/
  mNumEntries : UInt32
  /-- The bytes of the entries, unless the pointer is null. -/
  mEntries : Option (List UInt8)
  deriving DecidableEq

/-- A packet object. -/
inductive IPacket where
  /-- An object of a `DataPacket` class, as the bytes it occupies. -/
  | data (T : ChannelType) (memory : Buffer (sizeofClass T))
  /-- A log packet. -/
  | log (vptr : Pointer) (packet : ToS_Log)
  /-- An array packet of the class with a channel. -/
  | array (T : ChannelType) (vptr : Pointer) (packet : ArrayPacket)

/-- The size of an entry of an array class. -/
def sizeofEntry (T : ChannelType) : ℕ :=
  match family T with
  | .array entry _ => entry.size
  | _ => 0

/-- `MaxSize` of an array class. -/
def maxSize (T : ChannelType) : ℕ :=
  match family T with
  | .array _ maxSize => maxSize
  | _ => 0

/-- The word at the begin of an object. -/
def IPacket.vptr : IPacket → Pointer
  | .data _ memory => fun i => (byteAt memory i.val).getD 0
  | .log vptr _ => vptr
  | .array _ vptr _ => vptr

/-- `calcSize`; undefined where it aborts. -/
def calcSize : IPacket → Option ℕ
  | .data T _ => some (getSize T)
  | .log _ packet => packet.mData.map fun text => text.length + 2
  | .array T _ packet => some (4 + sizeofEntry T * packet.mNumEntries.toNat)

/-- `build`; undefined where it aborts or leaves an array. -/
def build {cap : ℕ} (packet : IPacket) (outData : Buffer cap) : Option (Buffer cap) :=
  match packet with
  | .data T memory =>
    if getSize T ≠ 0 then memcpy outData 0 memory sizeofDataPacket (getSize T) else some outData
  | .log _ packet => packet.mData.bind fun text =>
    (memcpy outData 0 (ofBytes [packet.mLogType]) 0 1).bind fun outData =>
      memcpy outData 1 (ofBytes (text ++ [0])) 0 (text.length + 1)
  | .array T _ packet => packet.mEntries.bind fun entries =>
    (memcpy outData 0 (ofBytes (littleEndian 4 packet.mNumEntries.toNat)) 0 4).bind fun outData =>
      memcpy outData 4 (ofBytes entries) 0 (sizeofEntry T * packet.mNumEntries.toNat)

/-- Why a packet is not read. -/
inductive ReadError where
  /-- `Wrong packet size`. -/
  | wrongPacketSize (len size : ℕ)
  /-- `mNumEntries > MaxSize`. -/
  | tooManyEntries (maxSize : ℕ)
  /-- A byte outside of the received ones is read. -/
  | outside
  deriving DecidableEq

/-- What a decoder leaves: the packet, and how many bytes it has written behind a block
of its own. -/
structure Decoded where
  /-- The packet. -/
  packet : IPacket
  /-- Bytes written behind the end of a block. -/
  overrun : ℕ

/-- `strlen` of the bytes from some place on; undefined when it finds no terminator there. -/
def strlen : List UInt8 → Option ℕ
  | [] => none
  | byte :: bytes => if byte = 0 then some 0 else (strlen bytes).map (· + 1)

/-- `DataPacket::read`. -/
def readData (T : ChannelType) (memory : Buffer (sizeofClass T)) (data : List UInt8) :
    Except ReadError Decoded :=
  if data.length ≠ getSize T then .error (.wrongPacketSize data.length (getSize T))
  else if getSize T ≠ 0 then
    match memcpy memory sizeofDataPacket (ofBytes data) 0 (getSize T) with
    | some memory => .ok ⟨.data T memory, 0⟩
    | none => .error .outside
  else .ok ⟨.data T memory, 0⟩

/-- `ToS_Log::read`. The block has room for the text and its terminator; `strncpy` fills
as many bytes as were received. -/
def readLog (vptr : Pointer) (data : List UInt8) : Except ReadError Decoded :=
  let charData := data.drop 1
  match strlen charData, data.head? with
  | some strLen, some logType =>
    .ok ⟨.log vptr ⟨some (charData.take strLen), logType⟩, data.length - (strLen + 1)⟩
  | _, _ => .error .outside

/-- `ArrayPacket::read`. -/
def readArray (T : ChannelType) (vptr : Pointer) (data : List UInt8) : Except ReadError Decoded :=
  if data.length < 4 then .error .outside
  else
    let mNumEntries := ofLittleEndian (data.take 4)
    if maxSize T < mNumEntries then .error (.tooManyEntries (maxSize T))
    else
      let entries := Buffer.zero (sizeofEntry T * mNumEntries)
      match memcpy entries 0 (ofBytes data) 4 (sizeofEntry T * mNumEntries) with
      | some entries =>
        .ok ⟨.array T vptr ⟨UInt32.ofNat mNumEntries,
          some (firstBytes entries (sizeofEntry T * mNumEntries))⟩, 0⟩
      | none => .error .outside

/-- `read`. -/
def read (packet : IPacket) (data : List UInt8) : Except ReadError Decoded :=
  match packet with
  | .data T memory => readData T memory data
  | .log vptr _ => readLog vptr data
  | .array T vptr _ => readArray T vptr data

/-- The virtual tables of the classes. -/
abbrev VTables := ChannelType → Pointer

/-- Set the virtual table pointer of an object. -/
def setVptr {cap : ℕ} (memory : Buffer cap) (vptr : Pointer) : Buffer cap :=
  blit memory 0 vptr 0 8

/-- `new (packet) T`, in memory that holds anything. -/
def construct (vtable : VTables) (T : ChannelType) (memory : Buffer (sizeofClass T)) : IPacket :=
  match family T with
  | .data _ => .data T (setVptr memory (vtable T))
  | .log => .log (vtable T) ⟨none, 0⟩
  | .array _ _ => .array T (vtable T) ⟨0, none⟩

/-- The memory that `PENET_MALLOC` answers with for an object of each class. -/
abbrev Fresh := (T : ChannelType) → Buffer (sizeofClass T)

/-- `readPacket<T>`. -/
def readPacket (vtable : VTables) (fresh : Fresh) (T : ChannelType) (data : List UInt8) :
    Except ReadError Decoded :=
  read (construct vtable T (fresh T)) data

/-- `sChannels.createFuncs`. -/
def createFuncs (vtable : VTables) (fresh : Fresh) :
    List (List UInt8 → Except ReadError Decoded) :=
  penetChannels.map (readPacket vtable fresh)

/-- `sChannels.vtables`. -/
def vtables (vtable : VTables) : List Pointer := penetChannels.map vtable

/-- `identifyType`; undefined where it aborts. -/
def identifyType (vtable : VTables) (packet : IPacket) : Option ℕ :=
  (vtables vtable).findIdx? fun entry => decide (packet.vptr = entry)

end BfMultiplayer.PacketCodec

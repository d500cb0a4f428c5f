import BfMultiplayer.ClientMap
import BfMultiplayer.PacketOwnership
import BfMultiplayer.SaveBufferBounds
import BfMultiplayer.SaveRestarts
import BfMultiplayer.WireRoundTrip

/-!
# What the bytes of a client can do to the server

A received packet is looked up by its channel, decoded and handled. The program
aborts when no handler is registered for the channel and when the decoder
rejects the bytes. Otherwise the handler runs, and it assigns to the record of
the sender alone. A handler that saves throws when an island has a name that is
no UTF-8, which nothing catches. The handlers see the packets of the server's
model: what they read of the payload is taken from its bytes.
-/

namespace BfMultiplayer.RemotePackets

open ByteBuffer CLayout Channels Packets PacketCodec DecoderBounds WireRoundTrip
open ServerState ServerHandlers SaveChunkRules EventLoopRules ClientTable ClientMap GuardedRuns
open JsonValue SaveFile ProgressRules SaveRestarts SaveBufferBounds
open PacketOwnership (sEntries PacketHandlerEntry)

/-- Where a member of an object is, counted from the end of the base. -/
def memberOffset (members : List Layout) (i : ℕ) : ℕ :=
  alignUp (endOffset 0 ((pointer :: members).take (i + 1)))
    (((members[i]?).map Layout.align).getD 1) - sizeofDataPacket

/-- Bytes of a payload. -/
def bytesAt (data : List UInt8) (off n : ℕ) : List UInt8 := (data.drop off).take n

/-- A byte of a payload. -/
def byteOf (data : List UInt8) (off : ℕ) : UInt8 := (data[off]?).getD 0

/-- A `bool` of a payload. -/
def boolAt (data : List UInt8) (off : ℕ) : Bool := byteOf data off != 0

/-- An unsigned integer of a payload. -/
def natAt (data : List UInt8) (off width : ℕ) : ℕ := ofLittleEndian (bytesAt data off width)

/-- An `int` of a payload. -/
def intAt (data : List UInt8) (off : ℕ) : ℤ := (BitVec.ofNat 32 (natAt data off 4)).toInt

/-- An array of a payload. -/
def bufferAt (data : List UInt8) (off cap : ℕ) : Buffer cap := fun i => byteOf data (off + i.val)

/-- `ToS_Hello`. -/
def toS_Hello (data : List UInt8) : ToS_Hello :=
  let member := memberOffset [uid, nickname, scalar 1]
  ⟨⟨UInt64.ofNat (natAt data (member 0) 8), UInt64.ofNat (natAt data (member 0 + 8) 8)⟩,
    bufferAt data (member 1) 33, boolAt data (member 2)⟩

/-- `PuppetPoseData`. -/
def puppetPose (data : List UInt8) : PuppetPoseData :=
  ⟨⟨UInt32.ofNat (natAt data 0 4), UInt32.ofNat (natAt data 4 4), UInt32.ofNat (natAt data 8 4)⟩,
    data.drop vector3f.size⟩

/-- `ToS_GoalItemInfo`. -/
def toS_GoalItemInfo (data : List UInt8) : ToS_GoalItemInfo :=
  let member := memberOffset [scalar 4, scalar 4]
  ⟨intAt data (member 0), intAt data (member 1)⟩

/-- `ScenarioUpdateData`; undefined when the name has no terminator in its array. -/
def scenarioUpdate (data : List UInt8) : Option ScenarioUpdateData :=
  let member := memberOffset [array 128 (scalar 1), scalar 4, scalar 1]
  (strlen (bytesAt data (member 0) 128)).map fun length =>
    ⟨bytesAt data (member 0) length, intAt data (member 1), some (boolAt data (member 2))⟩

/-- `MiscMapSyncData`; the server relays an object id without reading it. -/
def miscMapSync (data : List UInt8) : MiscMapSyncData :=
  let union := memberOffset [scalar 4, scalar 4] 1
  let type := intAt data (memberOffset [scalar 4, scalar 4] 0)
  if type = 0 then .killActorByObjId ((bytesAt data union 128).takeWhile (· ≠ 0))
  else if type = 1 then .shardCollect (intAt data union) (intAt data (union + 4))
  else if type = 2 then .darkBowserHealth (intAt data union)
  else if type = 3 then .toadUnlock (intAt data union)
  else .other type

/-- `SaveDataChunk`. -/
def saveDataChunk (data : List UInt8) : SaveDataChunk :=
  let member := memberOffset [scalar 4, scalar 2, array sSaveDataChunkSize (scalar 1)]
  ⟨intAt data (member 0), UInt16.ofNat (natAt data (member 1) 2),
    bufferAt data (member 2) sSaveDataChunkSize⟩

/-- What the handler of a class sees of a payload. -/
def castPayload (T : ChannelType) (data : List UInt8) : Option ServerBound :=
  match T with
  | .ToS_Hello => some (.hello (toS_Hello data))
  | .ToS_SingleModeSceneEnter => some (.singleModeSceneEnter ⟨byteOf data 0⟩)
  | .ToS_PuppetPose => some (.puppetPose (puppetPose data))
  | .ToS_Action => some (.action data)
  | .ToS_PlayerFigureChange => some (.playerFigureChange ⟨byteOf data 0⟩)
  | .ToS_GoalItemInfo => some (.goalItemInfo (toS_GoalItemInfo data))
  | .ToS_PhaseUnlock => some (.phaseUnlock data)
  | .ToS_ScenarioUpdate => (scenarioUpdate data).map .scenarioUpdate
  | .ToS_DisasterModeControllerInternalUpdate => some (.disasterModeControllerInternalUpdate data)
  | .ToS_MiscMapSync => some (.miscMapSync (miscMapSync data))
  | .ToS_JumpFlip => some (.jumpFlip ⟨boolAt data 0⟩)
  | .SaveDataChunk => some (.saveDataChunk (saveDataChunk data))
  | _ => none

/-- What the handler of a class sees of a decoded packet. -/
def handlerArgument (T : ChannelType) : IPacket → Option ServerBound
  | .data T' memory => castPayload T (payload T' memory)
  | .log _ packet => packet.mData.map fun msg => .log packet.mLogType msg
  | .array _ _ _ => none

/-- How the handling of an event ends. -/
inductive Outcome where
  /-- Back in the event loop. -/
  | returned (s : Server) (effects : List Effect)
  /-- `PENET_ABORT`. -/
  | aborted
  /-- The exception of a save, which ends the program. -/
  | threw
  /-- A byte outside of an array is read or written. -/
  | undefined

section Host

variable (library : JsonLibrary) (vtable : VTables) (fresh : Fresh)

/-- What a handler leaves, with the values that it saves. A save dumps the progress and then reads
the shared save. -/
def saveAndReturn : Option (Server × List Effect) → Outcome
  | none => .undefined
  | some (t, effects) =>
    if (savedValues effects).all fun value => (library.dump (toJson value)).isSome then
      if (savedValues effects).all fun value => value.sharedSaveSize ≤ sharedSaveCapacity then
        .returned t effects
      else .undefined
    else .threw

/-- The handler on a decoded packet. -/
def handleDecoded (s : Server) (node : ClientNode) (T : ChannelType) (decoded : Decoded)
    (now : ℕ) : Outcome :=
  if decoded.overrun ≠ 0 then .undefined
  else saveAndReturn library
    ((handlerArgument T decoded.packet).bind fun packet => handlePacket s node packet now)

/-- `PacketHandler::handlePacket`. -/
def packetHandlerHandlePacket (s : Server) (node : ClientNode) (T : ChannelType)
    (data : List UInt8) (now : ℕ) : Outcome :=
  match (sEntries .server).find? fun entry => decide (entry.type = T) with
  | none => .aborted
  | some _ =>
    match readPacket vtable fresh T data with
    | .ok decoded => handleDecoded library s node T decoded now
    | .error .outside => .undefined
    | .error _ => .aborted

/-- `ProjectPacketHandler::handlePacket`. -/
def projectHandlePacket (s : Server) (node : ClientNode) (T : ChannelType) (data : List UInt8)
    (now : ℕ) : Outcome :=
  match (sEntries .server).find? fun entry => decide (entry.type = T) with
  | none => .aborted
  -- a handler with a thread of its own gets a copy of the bytes there, and its abort is the
  -- program's as well
  | some _ => packetHandlerHandlePacket library vtable fresh s node T data now

/-- `ENET_EVENT_TYPE_RECEIVE` on the bytes of a packet. -/
def receiveBytes (s : Server) (peer : ENetPeer) (channelID : Fin channelCount)
    (data : List UInt8) (now : ℕ) : Outcome :=
  match s.find? (calcEnetAddressHashCode peer.address) with
  | none => .returned s [.disconnectPeer peer]
  | some node =>
    let packetType := penetChannels.get channelID
    if packetType ≠ .ToS_Hello ∧ node.client.mHasGreeting = false then .returned s []
    else projectHandlePacket library vtable fresh s node packetType data now

end Host

/-- An event of the host, with the bytes that a peer sends. -/
inductive HostEvent where
  /-- A peer connected; its record is allocated at `ptr`. -/
  | connect (peer : ENetPeer) (ptr : ℕ)
  /-- Bytes of a peer arrived on a channel at clock time `now`. -/
  | receive (peer : ENetPeer) (channelID : Fin channelCount) (data : List UInt8) (now : ℕ)
  /-- A peer disconnected. -/
  | disconnect (peer : ENetPeer)

/-- The event loop, as far as it returns. -/
def hostStep (library : JsonLibrary) (vtable : VTables) (fresh : Fresh) (s : Server) :
    HostEvent → Option Server
  | .connect peer ptr => some (onConnect s peer ptr)
  | .receive peer channelID data now =>
    match receiveBytes library vtable fresh s peer channelID data now with
    | .returned t _ => some t
    | .aborted => none
    | .threw => none
    | .undefined => none
  | .disconnect peer => some (onDisconnect s peer).1

/-- The record of a connection is allocated at a free place. -/
def AllocatesFree (s : Server) : HostEvent → Prop
  | .connect _ ptr => ∀ node ∈ s.mClients, node.ptr ≠ ptr
  | .receive _ _ _ _ => True
  | .disconnect _ => True

instance (s : Server) : ∀ event, Decidable (AllocatesFree s event)
  | .connect _ _ => inferInstanceAs (Decidable (∀ node ∈ _, _))
  | .receive _ _ _ _ => inferInstanceAs (Decidable True)
  | .disconnect _ => inferInstanceAs (Decidable True)

/-- The server has a handler for a class. -/
def Registered (T : ChannelType) : Prop := T ∈ (sEntries .server).map PacketHandlerEntry.type

instance : DecidablePred Registered :=
  fun T => inferInstanceAs (Decidable (T ∈ (sEntries .server).map PacketHandlerEntry.type))

/-- Decoding and handling a payload stays inside of the arrays: the block for a text holds as many
bytes as were received, an island has a terminated name, and a last chunk that is stored fits the
end of the work buffer. -/
def StaysInside (s : Server) (node : ClientNode) (T : ChannelType) (data : List UInt8) : Prop :=
  match T with
  | .ToS_Log => ∃ strLen, strlen (data.drop 1) = some strLen ∧ data.length ≤ strLen + 1
  | .ToS_ScenarioUpdate => 0 ∈ data.take 128
  | .SaveDataChunk =>
    acceptedSlot s node.ptr (saveDataChunk data) = some (Fin.last 7) →
      (saveDataChunk data).size.toNat ≤ lastChunkCapacity
  | _ => True

/-- Handling a packet ends with a save: always for a shine and a shard, for a toad that is not
listed, and for a chunk that completes a session. -/
def SavesOn (s : Server) (node : ClientNode) : ServerBound → Prop
  | .goalItemInfo _ => True
  | .miscMapSync (.shardCollect _ _) => True
  | .miscMapSync (.toadUnlock character) => character ∉ s.mSaveData.unlockedToads
  | .saveDataChunk chunk =>
    ∃ slot, acceptedSlot s node.ptr chunk = some slot ∧ ∀ i, i ≠ slot → s.mSaveDataAck i = true
  | _ => False

/-- What a payload makes the server save can be written. -/
def SaveCanBeWritten (s : Server) (node : ClientNode) (T : ChannelType) (data : List UInt8) : Prop :=
  ∀ packet, castPayload T data = some packet → SavesOn s node packet → NamesUtf8 s.mSaveData

/-- The table keeps its places, and the records but one. -/
def KeepsOthers (s : Server) (node : ClientNode) (t : Server) : Prop :=
  t.mClients.length = s.mClients.length ∧
    ∀ (i : ℕ) (other : ClientNode), s.mClients[i]? = some other → other ≠ node →
      t.mClients[i]? = some other

/-- A class is registered exactly when its entry is found. -/
theorem find?_entry_isSome_iff (T : ChannelType) :
    ((sEntries .server).find? fun entry => decide (entry.type = T)).isSome ↔ Registered T := by
  rw [List.find?_isSome, Registered, List.mem_map]
  simp only [decide_eq_true_eq]

section Dispatch

variable (library : JsonLibrary) (vtable : VTables) (fresh : Fresh)

/-- What a handler leaves when it comes back. -/
theorem saveAndReturn_eq_returned_iff {result : Option (Server × List Effect)} {t : Server}
    {effects : List Effect} :
    saveAndReturn library result = .returned t effects ↔ result = some (t, effects) ∧
      (∀ value ∈ savedValues effects, (library.dump (toJson value)).isSome) ∧
      ∀ value ∈ savedValues effects, value.sharedSaveSize ≤ sharedSaveCapacity := by
  unfold saveAndReturn
  cases result with
  | none => exact iff_of_false (fun h => nomatch h) fun h => nomatch h.1
  | some result =>
    obtain ⟨u, sent⟩ := result
    dsimp only
    rw [Option.some.injEq, Prod.mk.injEq]
    split
    · rename_i hdump
      split
      · rename_i hfits
        rw [Outcome.returned.injEq]
        constructor
        · rintro ⟨rfl, rfl⟩
          exact ⟨⟨rfl, rfl⟩, by simpa using hdump, by simpa using hfits⟩
        · exact And.left
      · rename_i hlarge
        refine iff_of_false (fun h => nomatch h) fun h => hlarge ?_
        obtain ⟨⟨rfl, rfl⟩, -, hfits⟩ := h
        simpa using hfits
    · rename_i hthrows
      refine iff_of_false (fun h => nomatch h) fun h => hthrows ?_
      obtain ⟨⟨rfl, rfl⟩, hdump, -⟩ := h
      simpa using hdump

/-- Handling a decoded packet does not abort. -/
theorem handleDecoded_ne_aborted (s : Server) (node : ClientNode) (T : ChannelType)
    (decoded : Decoded) (now : ℕ) : handleDecoded library s node T decoded now ≠ .aborted := by
  unfold handleDecoded
  split
  · exact fun h => nomatch h
  · unfold saveAndReturn
    split
    · exact fun h => nomatch h
    · split
      · split <;> exact fun h => nomatch h
      · exact fun h => nomatch h

/-- A registered packet is decoded and handled. -/
theorem projectHandlePacket_of_registered {T : ChannelType} (h : Registered T) (s : Server)
    (node : ClientNode) (data : List UInt8) (now : ℕ) :
    projectHandlePacket library vtable fresh s node T data now =
      match readPacket vtable fresh T data with
      | .ok decoded => handleDecoded library s node T decoded now
      | .error .outside => .undefined
      | .error _ => .aborted := by
  obtain ⟨entry, hentry⟩ := Option.isSome_iff_exists.mp ((find?_entry_isSome_iff T).mpr h)
  rw [projectHandlePacket, packetHandlerHandlePacket, hentry]

/-- No other packet is. -/
theorem projectHandlePacket_of_not_registered {T : ChannelType} (h : ¬Registered T) (s : Server)
    (node : ClientNode) (data : List UInt8) (now : ℕ) :
    projectHandlePacket library vtable fresh s node T data now = .aborted := by
  have hnone : ((sEntries .server).find? fun entry => decide (entry.type = T)) = none := by
    rw [← Option.not_isSome_iff_eq_none, find?_entry_isSome_iff]
    exact h
  rw [projectHandlePacket, hnone]

/-- The program aborts for a packet without a handler and for bytes that the decoder rejects. -/
theorem projectHandlePacket_aborted_iff (s : Server) (node : ClientNode) (T : ChannelType)
    (data : List UInt8) (now : ℕ) :
    projectHandlePacket library vtable fresh s node T data now = .aborted ↔
      ¬Registered T ∨ Rejects T data := by
  by_cases hregistered : Registered T
  · rw [projectHandlePacket_of_registered library vtable fresh hregistered,
      ← readPacket_aborts_iff vtable fresh]
    have hleft : (¬Registered T ∨ aborts (readPacket vtable fresh T data) = true) ↔
        aborts (readPacket vtable fresh T data) = true := or_iff_right (not_not.mpr hregistered)
    rw [hleft]
    cases readPacket vtable fresh T data with
    | ok decoded =>
      exact iff_of_false (handleDecoded_ne_aborted library s node T decoded now)
        Bool.false_ne_true
    | error reason =>
      cases reason with
      | wrongPacketSize len size => exact iff_of_true rfl rfl
      | tooManyEntries maxSize => exact iff_of_true rfl rfl
      | outside => exact iff_of_false (fun h => nomatch h) Bool.false_ne_true
  · exact iff_of_true
      (projectHandlePacket_of_not_registered library vtable fresh hregistered s node data now)
      (Or.inl hregistered)

/-- What comes back is a handled packet. -/
theorem returned_iff {s t : Server} {node : ClientNode} {T : ChannelType} {data : List UInt8}
    {now : ℕ} {effects : List Effect} :
    projectHandlePacket library vtable fresh s node T data now = .returned t effects ↔
      Registered T ∧ ∃ decoded packet, readPacket vtable fresh T data = .ok decoded ∧
        decoded.overrun = 0 ∧ handlerArgument T decoded.packet = some packet ∧
        handlePacket s node packet now = some (t, effects) ∧
        (∀ value ∈ savedValues effects, (library.dump (toJson value)).isSome) ∧
        ∀ value ∈ savedValues effects, value.sharedSaveSize ≤ sharedSaveCapacity := by
  by_cases hregistered : Registered T
  · rw [projectHandlePacket_of_registered library vtable fresh hregistered,
      and_iff_right hregistered]
    cases readPacket vtable fresh T data with
    | ok decoded =>
      dsimp only [handleDecoded]
      split
      · rename_i hover
        refine iff_of_false (fun h => nomatch h) ?_
        rintro ⟨other, packet, hother, hnone, -⟩
        cases hother
        exact hover hnone
      · rename_i hover
        rw [saveAndReturn_eq_returned_iff, Option.bind_eq_some_iff]
        constructor
        · rintro ⟨⟨packet, hpacket, hhandled⟩, hsaves⟩
          exact ⟨decoded, packet, rfl, not_not.mp hover, hpacket, hhandled, hsaves⟩
        · rintro ⟨other, packet, hother, -, hpacket, hhandled, hsaves⟩
          cases hother
          exact ⟨⟨packet, hpacket, hhandled⟩, hsaves⟩
    | error reason =>
      refine iff_of_false ?_ fun h => ?_
      · cases reason <;> exact fun h => nomatch h
      · obtain ⟨decoded, packet, hdecoded, -⟩ := h
        cases hdecoded
  · rw [projectHandlePacket_of_not_registered library vtable fresh hregistered]
    exact iff_of_false (fun h => nomatch h) fun h => hregistered h.1

end Dispatch

/-- Bytes of the right length are decoded as an object with them behind the base. -/
theorem readPacket_of_length (vtable : VTables) (fresh : Fresh) {T : ChannelType}
    {members : List Layout} (hfamily : family T = .data members) {data : List UInt8}
    (hlength : data.length = getSize T) :
    ∃ memory, readPacket vtable fresh T data = .ok ⟨.data T memory, 0⟩ ∧
      payload T memory = data := by
  obtain ⟨memory, hcopy, hread⟩ := readData_of_length (setVptr (fresh T) (vtable T)) hlength
  refine ⟨memory, ?_, ?_⟩
  · rw [readPacket, construct, hfamily]
    exact hread
  · have hsize := length_payload T memory
    apply List.ext_getElem?
    intro j
    by_cases hj : j < getSize T
    · have hbyte := memcpy_inside hcopy j hj
      rw [Nat.zero_add, byteAt_ofBytes] at hbyte
      rw [getElem?_payload T memory hj, hbyte]
    · rw [List.getElem?_eq_none (by omega), List.getElem?_eq_none (by omega)]

/-- An object is decoded from bytes of the right length alone. -/
theorem length_of_readPacket {vtable : VTables} {fresh : Fresh} {T : ChannelType}
    {members : List Layout} (hfamily : family T = .data members) {data : List UInt8}
    {decoded : Decoded} (h : readPacket vtable fresh T data = .ok decoded) :
    data.length = getSize T := by
  by_contra hlength
  have hrejects : Rejects T data := by
    rw [Rejects, hfamily]
    exact hlength
  have haborts := (readPacket_aborts_iff vtable fresh T data).mpr hrejects
  rw [h] at haborts
  cases haborts

/-- What the handler sees of a decoded object is taken from the received bytes. -/
theorem handlerArgument_of_readPacket {vtable : VTables} {fresh : Fresh} {T : ChannelType}
    {members : List Layout} (hfamily : family T = .data members) {data : List UInt8}
    {decoded : Decoded} (h : readPacket vtable fresh T data = .ok decoded) :
    handlerArgument T decoded.packet = castPayload T data := by
  obtain ⟨memory, hread, hpayload⟩ :=
    readPacket_of_length vtable fresh hfamily (length_of_readPacket hfamily h)
  rw [hread] at h
  cases h
  rw [handlerArgument, hpayload]

/-- Received bytes that come back are an event of the server's model. -/
theorem onReceive_of_receiveBytes {library : JsonLibrary} {vtable : VTables} {fresh : Fresh}
    {s t : Server} {peer : ENetPeer} {channelID : Fin channelCount} {data : List UInt8} {now : ℕ}
    {effects : List Effect}
    (h : receiveBytes library vtable fresh s peer channelID data now = .returned t effects) :
    ∃ packet, onReceive s peer packet now = some (t, effects) := by
  unfold receiveBytes at h
  cases hfind : s.find? (calcEnetAddressHashCode peer.address) with
  | none =>
    rw [hfind] at h
    cases h
    exact ⟨.log 0 [], by rw [onReceive, hfind]⟩
  | some node =>
    rw [hfind] at h
    dsimp only at h
    split at h
    · rename_i hdropped
      cases h
      refine ⟨.log 0 [], ?_⟩
      simp only [onReceive, hfind, hdropped.2, Bool.false_eq_true, if_false]
    · rename_i hadmitted
      obtain ⟨-, decoded, packet, hread, -, hpacket, hhandled, -⟩ :=
        (returned_iff library vtable fresh).mp h
      have hdispatched : Dispatched s peer packet node := by
        refine ⟨hfind, ?_⟩
        by_cases hhello : penetChannels.get channelID = .ToS_Hello
        · rw [hhello] at hread hpacket
          rw [handlerArgument_of_readPacket rfl hread] at hpacket
          cases hpacket
          exact Or.inr ⟨_, rfl⟩
        · exact Or.inl (Bool.eq_true_of_not_eq_false fun hg => hadmitted ⟨hhello, hg⟩)
      exact ⟨packet, (onReceive_of_dispatched hdispatched now).trans hhandled⟩

/-- A step of the host is one of the server's model. -/
theorem serviceStep_of_hostStep {library : JsonLibrary} {vtable : VTables} {fresh : Fresh}
    {s t : Server} {event : HostEvent} (halloc : AllocatesFree s event)
    (h : hostStep library vtable fresh s event = some t) :
    ∃ modelled, Allocates s modelled ∧ serviceStep s modelled = some t := by
  cases event with
  | connect peer ptr => exact ⟨.connect peer ptr, halloc, h⟩
  | receive peer channelID data now =>
    dsimp only [hostStep] at h
    cases hreceived : receiveBytes library vtable fresh s peer channelID data now with
    | returned u effects =>
      rw [hreceived] at h
      cases h
      obtain ⟨packet, hpacket⟩ := onReceive_of_receiveBytes hreceived
      refine ⟨.receive peer packet now, trivial, ?_⟩
      rw [serviceStep, exeService, hpacket]
      rfl
    | aborted =>
      rw [hreceived] at h
      cases h
    | threw =>
      rw [hreceived] at h
      cases h
    | undefined =>
      rw [hreceived] at h
      cases h
  | disconnect peer => exact ⟨.disconnect peer, trivial, h⟩

/-- Handling a packet keeps the shared save inside of its array. -/
theorem sharedSave_fits_of_progress {before after : ServerSaveData} {packet : ServerBound}
    {values : List ServerSaveData} (h : ProgressStep before packet after values)
    (hfits : before.sharedSaveSize ≤ sharedSaveCapacity) :
    after.sharedSaveSize ≤ sharedSaveCapacity := by
  cases h with
  | same _ => exact hfits
  | flipped _ _ => exact hfits
  | island _ => exact hfits
  | repeated _ => exact hfits
  | known _ => exact hfits
  | reported _ hafter =>
    rw [hafter]
    exact hfits
  | toad _ hafter =>
    rw [hafter]
    exact hfits
  | shard hafter =>
    rw [hafter]
    exact hfits
  | committed hsize _ => exact hsize

/-- So does every event. -/
theorem sharedSave_fits_step {s t : Server} {event : ENetEvent}
    (hfits : s.mSaveData.sharedSaveSize ≤ sharedSaveCapacity)
    (hstep : serviceStep s event = some t) :
    t.mSaveData.sharedSaveSize ≤ sharedSaveCapacity := by
  obtain ⟨⟨u, effects⟩, hserve, rfl⟩ := Option.map_eq_some_iff.mp hstep
  cases hhandled : handled s event with
  | none =>
    obtain ⟨v, other, hother, hsame, -⟩ := exeService_of_unhandled hhandled
    rw [hserve, Option.some.injEq, Prod.mk.injEq] at hother
    dsimp only
    rw [hother.1, hsame]
    exact hfits
  | some taken =>
    obtain ⟨now, hcall⟩ := exeService_of_handled hhandled
    exact sharedSave_fits_of_progress (handlePacket_progress (hcall.symm.trans hserve)) hfits

/-- What holds of the server in every reachable state of the host. -/
structure Sound (s : Server) : Prop where
  /-- The table is a map. -/
  mapped : Mapped s
  /-- An upload is no larger than the places it has filled. -/
  bounded : SessionBounded s
  /-- The shared save is inside of its array. -/
  fits : s.mSaveData.sharedSaveSize ≤ sharedSaveCapacity

/-- Every reachable state of the host is sound. -/
theorem sound_host {library : JsonLibrary} {vtable : VTables} {fresh : Fresh}
    {saved : ServerSaveData} {events : List HostEvent} {t : Server}
    (hsaved : saved.sharedSaveSize ≤ sharedSaveCapacity)
    (halloc : Along AllocatesFree (hostStep library vtable fresh) (Server.fresh saved) events)
    (hrun : run (hostStep library vtable fresh) (Server.fresh saved) events = some t) :
    Sound t := by
  have hstart : Sound (Server.fresh saved) :=
    ⟨mapped_fresh saved, sessionBounded_of_empty fun _ => rfl, hsaved⟩
  refine run_invariant (fun s event u hs hfree hstep => ?_) hstart halloc hrun
  obtain ⟨modelled, hmodelled, hserved⟩ := serviceStep_of_hostStep hfree hstep
  exact ⟨mapped_step s modelled u hs.mapped hmodelled hserved,
    sessionBounded_step hs.bounded hserved, sharedSave_fits_step hs.fits hserved⟩

/-- A handler keeps the records of the others. -/
theorem keepsOthers_of_handled {s t : Server} (hmap : Mapped s) {node : ClientNode}
    (hnode : node ∈ s.mClients) {packet : ServerBound} {now : ℕ} {effects : List Effect}
    (h : handlePacket s node packet now = some (t, effects)) : KeepsOthers s node t := by
  have htable := (handlePacket_table h).1
  rw [Server.modify] at htable
  constructor
  · rw [htable, List.length_map]
  · intro i other hother hne
    have hptr : ¬other.ptr = node.ptr :=
      fun he => hne (hmap.eq_of_ptr (List.mem_of_getElem? hother) hnode he)
    rw [htable, List.getElem?_map, hother, Option.map_some, if_neg hptr]

/-- All registered classes but the log's are those of objects. -/
theorem family_of_registered {T : ChannelType} (h : Registered T) (hlog : T ≠ .ToS_Log) :
    ∃ members, family T = .data members := by
  cases T with
  | ToS_Log => exact absurd rfl hlog
  | ToC_PlayerList => exact absurd h (by decide)
  | _ => exact ⟨_, rfl⟩

/-- A name with a terminator in its array is read. -/
theorem scenarioUpdate_isSome {data : List UInt8} (h : 0 ∈ data.take 128) :
    (scenarioUpdate data).isSome := by
  have hname : bytesAt data (memberOffset [array 128 (scalar 1), scalar 4, scalar 1] 0) 128 =
      data.take 128 := rfl
  cases hlength : strlen (data.take 128) with
  | none => exact absurd h ((strlen_eq_none_iff _).mp hlength)
  | some length =>
    rw [scenarioUpdate, hname, hlength]
    rfl

/-- The decoder of the log writes behind its block whatever it receives. -/
theorem log_leaves_block (s : Server) (node : ClientNode) (data : List UInt8) :
    ¬StaysInside s node .ToS_Log data := by
  rintro ⟨strLen, hlength, hfits⟩
  have hlt := strlen_lt hlength
  rw [List.length_drop] at hlt
  omega

/-- The decoder of the log does not stay inside of its block. -/
theorem log_overrun {vtable : VTables} {fresh : Fresh} {data : List UInt8} {decoded : Decoded}
    (h : readPacket vtable fresh .ToS_Log data = .ok decoded) : decoded.overrun ≠ 0 := by
  have hread : readLog (vtable .ToS_Log) data = .ok decoded := h
  unfold readLog at hread
  dsimp only at hread
  split at hread
  · rename_i strLen logType hlength hhead
    cases hread
    have hlt := strlen_lt hlength
    rw [List.length_drop] at hlt
    dsimp only
    omega
  · cases hread

/-- An island's name is read exactly when it has a terminator in its array. -/
theorem scenarioUpdate_isSome_iff (data : List UInt8) :
    (scenarioUpdate data).isSome ↔ 0 ∈ data.take 128 := by
  have hname : bytesAt data (memberOffset [array 128 (scalar 1), scalar 4, scalar 1] 0) 128 =
      data.take 128 := rfl
  rw [scenarioUpdate, Option.isSome_map, hname, ← Option.ne_none_iff_isSome, Ne, strlen_eq_none_iff,
    not_not]

/-- The handler of an object sees the payload and comes back exactly when it stays inside of the
arrays. -/
theorem staysInside_iff {s : Server} (hbounded : SessionBounded s) {node : ClientNode}
    {T : ChannelType} (hregistered : Registered T) (hlog : T ≠ .ToS_Log) (data : List UInt8)
    (now : ℕ) :
    StaysInside s node T data ↔
      ∃ packet, castPayload T data = some packet ∧ (handlePacket s node packet now).isSome := by
  cases T with
  | ToS_Log => exact absurd rfl hlog
  | ToS_ScenarioUpdate =>
    rw [StaysInside, ← scenarioUpdate_isSome_iff, Option.isSome_iff_exists]
    constructor
    · rintro ⟨update, hupdate⟩
      refine ⟨.scenarioUpdate update, ?_, rfl⟩
      rw [castPayload, hupdate, Option.map_some]
    · rintro ⟨packet, hpacket, -⟩
      rw [castPayload, Option.map_eq_some_iff] at hpacket
      obtain ⟨update, hupdate, -⟩ := hpacket
      exact ⟨update, hupdate⟩
  | SaveDataChunk =>
    rw [StaysInside, ← handleSaveChunk_isSome_iff hbounded]
    constructor
    · exact fun h => ⟨_, rfl, h⟩
    · rintro ⟨packet, hpacket, hsome⟩
      cases hpacket
      exact hsome
  | _ =>
    first
    | exact absurd hregistered (by decide)
    | exact iff_of_true trivial
        ⟨_, rfl, handlePacket_isSome s node now fun chunk h => nomatch h⟩

/-- A handler saves the progress that it leaves, with the islands from before it. -/
theorem savedValues_of_progress {before after : ServerSaveData} {packet : ServerBound}
    {values : List ServerSaveData} (h : ProgressStep before packet after values) :
    values = [] ∨
      values = [after] ∧ after.islandToScenarioMap = before.islandToScenarioMap := by
  cases h with
  | same _ => exact Or.inl rfl
  | flipped _ _ => exact Or.inl rfl
  | island _ => exact Or.inl rfl
  | known _ => exact Or.inl rfl
  | repeated _ => exact Or.inr ⟨rfl, rfl⟩
  | reported _ hafter => exact Or.inr ⟨rfl, by rw [hafter]⟩
  | toad _ hafter => exact Or.inr ⟨rfl, by rw [hafter]⟩
  | shard hafter => exact Or.inr ⟨rfl, by rw [hafter]⟩
  | committed _ hafter => exact Or.inr ⟨rfl, by rw [hafter]⟩

/-- A chunk makes the server save when it completes a session. -/
theorem savesOn_chunk_iff {s t : Server} {node : ClientNode} {chunk : SaveDataChunk}
    {effects : List Effect} (h : handleSaveChunk s node.ptr chunk = some (t, effects)) :
    SavesOn s node (.saveDataChunk chunk) ↔ savedValues effects ≠ [] := by
  have hfull : ∀ {slot : Fin 8} {u : Server}, Stored (openSession s node.ptr) slot chunk u →
      (sessionFull u = true ↔ ∀ i, i ≠ slot → s.mSaveDataAck i = true) := by
    intro slot u hstored
    rw [sessionFull_iff, hstored.ack, openSession_ack]
    constructor
    · intro hall i hi
      have hack := hall i
      rwa [Function.update_of_ne hi] at hack
    · intro hall i
      by_cases hi : i = slot
      · rw [hi, Function.update_self]
      · rw [Function.update_of_ne hi]
        exact hall i hi
  cases handleSaveChunk_step h with
  | rejected hslot =>
    refine iff_of_false ?_ fun hne => hne rfl
    rintro ⟨slot, hsome, -⟩
    rw [hslot] at hsome
    cases hsome
  | stored hslot hstored hopen =>
    refine iff_of_false ?_ fun hne => hne rfl
    rintro ⟨slot, hsome, hall⟩
    rw [hslot, Option.some.injEq] at hsome
    subst hsome
    rw [(hfull hstored).mpr hall] at hopen
    cases hopen
  | committed hslot hstored hcomplete _ =>
    exact iff_of_true ⟨_, hslot, (hfull hstored).mp hcomplete⟩ (List.cons_ne_nil _ _)

/-- The packets that make the server save. -/
theorem savesOn_iff {s t : Server} {node : ClientNode} {packet : ServerBound} {now : ℕ}
    {effects : List Effect} (h : handlePacket s node packet now = some (t, effects)) :
    SavesOn s node packet ↔ savedValues effects ≠ [] := by
  have hstep := handlePacket_progress h
  cases packet with
  | saveDataChunk chunk => exact savesOn_chunk_iff h
  | miscMapSync data =>
    generalize savedValues effects = values at hstep ⊢
    generalize t.mSaveData = after at hstep
    cases hstep with
    | same hsilent =>
      cases data with
      | toadUnlock character => cases hsilent
      | shardCollect zoneID shardID => cases hsilent
      | _ => exact iff_of_false id fun hne => hne rfl
    | known hknown => exact iff_of_false (fun hnew => hnew hknown) fun hne => hne rfl
    | toad hnew _ => exact iff_of_true hnew (List.cons_ne_nil _ _)
    | shard _ => exact iff_of_true trivial (List.cons_ne_nil _ _)
  | goalItemInfo report =>
    generalize savedValues effects = values at hstep ⊢
    generalize t.mSaveData = after at hstep
    cases hstep with
    | same hsilent => cases hsilent
    | repeated _ => exact iff_of_true trivial (List.cons_ne_nil _ _)
    | reported _ _ => exact iff_of_true trivial (List.cons_ne_nil _ _)
  | _ =>
    generalize savedValues effects = values at hstep ⊢
    generalize t.mSaveData = after at hstep
    cases hstep <;> exact iff_of_false id fun hne => hne rfl

/-- What a handler saves can be written exactly when the islands have names in UTF-8, if it saves
at all. -/
theorem saves_written_iff {library : JsonLibrary}
    (hdump : ∀ data, (library.dump (toJson data)).isSome ↔ NamesUtf8 data) {s t : Server}
    {node : ClientNode} {packet : ServerBound} {now : ℕ} {effects : List Effect}
    (h : handlePacket s node packet now = some (t, effects)) :
    (∀ value ∈ savedValues effects, (library.dump (toJson value)).isSome) ↔
      (SavesOn s node packet → NamesUtf8 s.mSaveData) := by
  rw [savesOn_iff h]
  rcases savedValues_of_progress (handlePacket_progress h) with hnone | ⟨hone, hislands⟩
  · rw [hnone]
    exact iff_of_true (fun value hvalue => absurd hvalue List.not_mem_nil) fun hne => absurd rfl hne
  · rw [hone, List.forall_mem_singleton, hdump, NamesUtf8, NamesUtf8, hislands]
    exact (imp_iff_right (List.cons_ne_nil _ _)).symm

/-- The values that a handler saves are inside of their arrays. -/
theorem saves_fit {s t : Server} (hfits : s.mSaveData.sharedSaveSize ≤ sharedSaveCapacity)
    {node : ClientNode} {packet : ServerBound} {now : ℕ} {effects : List Effect}
    (h : handlePacket s node packet now = some (t, effects)) :
    ∀ value ∈ savedValues effects, value.sharedSaveSize ≤ sharedSaveCapacity := by
  have hstep := handlePacket_progress h
  have hafter := sharedSave_fits_of_progress hstep hfits
  intro value hvalue
  rcases savedValues_of_progress hstep with hnone | ⟨hone, -⟩
  · rw [hnone] at hvalue
    exact absurd hvalue List.not_mem_nil
  · rw [hone, List.mem_singleton] at hvalue
    rw [hvalue]
    exact hafter

/-- A registered packet comes back exactly when the decoder accepts it, nothing outside of the
arrays is read or written, and what is saved can be written. -/
theorem projectHandlePacket_returns_iff {library : JsonLibrary}
    (hdump : ∀ data, (library.dump (toJson data)).isSome ↔ NamesUtf8 data) (vtable : VTables)
    (fresh : Fresh) {s : Server} (hs : Sound s) (node : ClientNode) (T : ChannelType)
    (data : List UInt8) (now : ℕ) :
    (∃ t effects, projectHandlePacket library vtable fresh s node T data now =
        .returned t effects) ↔
      Registered T ∧ ¬Rejects T data ∧ StaysInside s node T data ∧
        SaveCanBeWritten s node T data := by
  by_cases hlog : T = .ToS_Log
  · refine iff_of_false ?_ fun h => ?_
    · rintro ⟨t, effects, hreturned⟩
      obtain ⟨-, decoded, packet, hread, hinside, -⟩ :=
        (returned_iff library vtable fresh).mp hreturned
      rw [hlog] at hread
      exact log_overrun hread hinside
    · rw [hlog] at h
      exact log_leaves_block s node data h.2.2.1
  · by_cases hregistered : Registered T
    · obtain ⟨members, hfamily⟩ := family_of_registered hregistered hlog
      rw [and_iff_right hregistered, staysInside_iff hs.bounded hregistered hlog data now]
      constructor
      · rintro ⟨t, effects, hreturned⟩
        obtain ⟨-, decoded, packet, hread, -, hpacket, hhandled, hwritten, -⟩ :=
          (returned_iff library vtable fresh).mp hreturned
        rw [handlerArgument_of_readPacket hfamily hread] at hpacket
        refine ⟨?_, ⟨packet, hpacket, by rw [hhandled]; rfl⟩, fun other hother => ?_⟩
        · rw [Rejects, hfamily]
          exact not_not.mpr (length_of_readPacket hfamily hread)
        · rw [hpacket, Option.some.injEq] at hother
          rw [← hother]
          exact (saves_written_iff hdump hhandled).mp hwritten
      · rintro ⟨haccepted, ⟨packet, hpacket, hsome⟩, hwritten⟩
        have hlength : data.length = getSize T := by
          rw [Rejects, hfamily] at haccepted
          exact not_not.mp haccepted
        obtain ⟨memory, hread, hpayload⟩ := readPacket_of_length vtable fresh hfamily hlength
        obtain ⟨⟨t, effects⟩, hhandled⟩ := Option.isSome_iff_exists.mp hsome
        refine ⟨t, effects, (returned_iff library vtable fresh).mpr ⟨hregistered, _, packet, hread,
          rfl, ?_, hhandled, (saves_written_iff hdump hhandled).mpr (hwritten packet hpacket),
          saves_fit hs.fits hhandled⟩⟩
        rw [handlerArgument, hpayload, hpacket]
    · refine iff_of_false ?_ fun h => hregistered h.1
      rintro ⟨t, effects, hreturned⟩
      exact hregistered ((returned_iff library vtable fresh).mp hreturned).1

/-- The event of a client that has greeted reaches the dispatcher. -/
theorem receiveBytes_of_greeted {s : Server} {peer : ENetPeer} {node : ClientNode}
    (hfind : s.find? (calcEnetAddressHashCode peer.address) = some node)
    (hgreeted : node.client.mHasGreeting = true) (library : JsonLibrary) (vtable : VTables)
    (fresh : Fresh) (channelID : Fin channelCount) (data : List UInt8) (now : ℕ) :
    receiveBytes library vtable fresh s peer channelID data now =
      projectHandlePacket library vtable fresh s node (penetChannels.get channelID) data now := by
  rw [receiveBytes, hfind]
  dsimp only
  rw [if_neg fun h => absurd (hgreeted.symm.trans h.2) (by decide)]

/-- In every reachable state of the server, the bytes of a client that has greeted make it abort
exactly when no handler is registered for their channel or the decoder rejects them. Whenever the
event comes back, the records of all others are as before, and it does exactly when there is a
handler, the decoder accepts the bytes, nothing outside of an array is read or written and no save
throws. -/
theorem remote_packet_outcome (library : JsonLibrary)
    (hdump : ∀ data, (library.dump (toJson data)).isSome ↔ NamesUtf8 data) (vtable : VTables)
    (fresh : Fresh) (saved : ServerSaveData) (hsaved : saved.sharedSaveSize ≤ sharedSaveCapacity)
    (events : List HostEvent) (s : Server)
    (halloc : Along AllocatesFree (hostStep library vtable fresh) (Server.fresh saved) events)
    (hrun : run (hostStep library vtable fresh) (Server.fresh saved) events = some s)
    (peer : ENetPeer) (node : ClientNode)
    (hfind : s.find? (calcEnetAddressHashCode peer.address) = some node)
    (hgreeted : node.client.mHasGreeting = true)
    (channelID : Fin channelCount) (data : List UInt8) (now : ℕ) :
    (receiveBytes library vtable fresh s peer channelID data now = .aborted ↔
        ¬Registered (penetChannels.get channelID) ∨
          Rejects (penetChannels.get channelID) data) ∧
      (∀ t effects,
        receiveBytes library vtable fresh s peer channelID data now = .returned t effects →
          KeepsOthers s node t) ∧
      ((∃ t effects,
          receiveBytes library vtable fresh s peer channelID data now = .returned t effects) ↔
        Registered (penetChannels.get channelID) ∧ ¬Rejects (penetChannels.get channelID) data ∧
          StaysInside s node (penetChannels.get channelID) data ∧
          SaveCanBeWritten s node (penetChannels.get channelID) data) := by
  have hs := sound_host hsaved halloc hrun
  rw [receiveBytes_of_greeted hfind hgreeted]
  generalize penetChannels.get channelID = T
  refine ⟨projectHandlePacket_aborted_iff library vtable fresh s node T data now, ?_,
    projectHandlePacket_returns_iff hdump vtable fresh hs node T data now⟩
  intro t effects hreturned
  obtain ⟨-, decoded, packet, -, -, -, hhandled, -⟩ :=
    (returned_iff library vtable fresh).mp hreturned
  exact keepsOthers_of_handled hs.mapped (find?_mem hfind).1 hhandled

/-- A client connects and greets with bytes of zero. -/
def greetingEvents : List HostEvent :=
  [.connect (peerAt 0) 0, .receive (peerAt 0) ⟨0, by decide⟩ (List.replicate 56 0) 0]

/-- A server without progress. -/
def emptyServer : Server := Server.fresh (.fresh (Buffer.zero sharedSaveCapacity))

/-- Memory that is zero. -/
def zeroMemory : Fresh := fun _ => Buffer.zero _

/-- The event loop of a server whose memory is zero. -/
def zeroStep : Server → HostEvent → Option Server := hostStep tableLibrary numberedTables zeroMemory

/-- The table writes a value exactly when its names are UTF-8. -/
theorem tableLibrary_dump_iff (data : ServerSaveData) :
    (tableLibrary.dump (toJson data)).isSome ↔ NamesUtf8 data := by
  simp only [tableLibrary, fieldsOf_toJson, NamesUtf8]
  split
  · rename_i hnames
    exact iff_of_true rfl hnames
  · rename_i hnames
    exact iff_of_false Bool.false_ne_true hnames

/-- The record of the greeted client. -/
theorem greeted_reached : ∃ s node, run zeroStep emptyServer greetingEvents = some s ∧
    s.find? (calcEnetAddressHashCode (peerAt 0).address) = some node ∧
    node.client.mHasGreeting = true := by
  have hreaches : (run zeroStep emptyServer greetingEvents).any (fun s =>
      decide ((s.find? (calcEnetAddressHashCode (peerAt 0).address)).any
        (fun node => node.client.mHasGreeting) = true)) = true := by decide +kernel
  obtain ⟨s, hrun, hgreeted⟩ := run_reaches hreaches
  obtain ⟨node, hfind, hnode⟩ := (Option.any_eq_true _ _).mp hgreeted
  exact ⟨s, node, hrun, hfind, hnode⟩

/-- A flip of the greeted client. -/
theorem remote_packet_outcome_flip : ∃ s node,
    run zeroStep emptyServer greetingEvents = some s ∧
      (receiveBytes tableLibrary numberedTables zeroMemory s (peerAt 0) ⟨21, by decide⟩
          [1, 0, 0, 0, 0, 0, 0, 0] 0 = .aborted ↔
        ¬Registered .ToS_JumpFlip ∨ Rejects .ToS_JumpFlip [1, 0, 0, 0, 0, 0, 0, 0]) ∧
      (∀ t effects, receiveBytes tableLibrary numberedTables zeroMemory s (peerAt 0)
          ⟨21, by decide⟩ [1, 0, 0, 0, 0, 0, 0, 0] 0 = .returned t effects →
        KeepsOthers s node t) ∧
      ((∃ t effects, receiveBytes tableLibrary numberedTables zeroMemory s (peerAt 0)
          ⟨21, by decide⟩ [1, 0, 0, 0, 0, 0, 0, 0] 0 = .returned t effects) ↔
        Registered .ToS_JumpFlip ∧ ¬Rejects .ToS_JumpFlip [1, 0, 0, 0, 0, 0, 0, 0] ∧
          StaysInside s node .ToS_JumpFlip [1, 0, 0, 0, 0, 0, 0, 0] ∧
          SaveCanBeWritten s node .ToS_JumpFlip [1, 0, 0, 0, 0, 0, 0, 0]) := by
  obtain ⟨s, node, hrun, hfind, hgreeted⟩ := greeted_reached
  have halloc : Along AllocatesFree zeroStep emptyServer greetingEvents := by decide +kernel
  exact ⟨s, node, hrun, remote_packet_outcome tableLibrary tableLibrary_dump_iff numberedTables
    zeroMemory _ (Nat.zero_le _) greetingEvents s halloc hrun (peerAt 0) node hfind hgreeted
    ⟨21, by decide⟩ [1, 0, 0, 0, 0, 0, 0, 0] 0⟩

/-- The greeted client takes the server down with a packet of the server's own class, and with a
flip without a byte. -/
theorem greeted_client_aborts_server : ∃ s node,
    run zeroStep emptyServer greetingEvents = some s ∧
      s.find? (calcEnetAddressHashCode (peerAt 0).address) = some node ∧
      node.client.mHasGreeting = true ∧
      receiveBytes tableLibrary numberedTables zeroMemory s (peerAt 0) ⟨2, by decide⟩ [] 0 =
        .aborted ∧
      receiveBytes tableLibrary numberedTables zeroMemory s (peerAt 0) ⟨21, by decide⟩ [] 0 =
        .aborted := by
  obtain ⟨s, node, hrun, hfind, hgreeted⟩ := greeted_reached
  refine ⟨s, node, hrun, hfind, hgreeted, ?_, ?_⟩
  · rw [receiveBytes_of_greeted hfind hgreeted, projectHandlePacket_aborted_iff]
    exact Or.inl (by decide)
  · rw [receiveBytes_of_greeted hfind hgreeted, projectHandlePacket_aborted_iff]
    have hsize : ([] : List UInt8).length ≠ getSize .ToS_JumpFlip := by decide
    exact Or.inr hsize

end BfMultiplayer.RemotePackets

import BfMultiplayer.ServerState

/-!
# Packet handlers and event loop of the server

Each handler of `sEntries`, and `Server::exeService` for one ENet event. A
handler returns the new server and its effects in order. Only the save chunk
handler copies by sizes it received, so only it can leave its arrays; the
event loop is then undefined. The scene-enter handler runs on a thread of its
own: its first assignment is taken with the packet, the player list and the
replay it sends afterwards are the functions `sceneEnterList` and
`sceneEnterReplay` of the state at the moment the thread reads it.
-/

namespace BfMultiplayer.ServerHandlers

open ByteBuffer Packets ServerState

/-- Smallest age in milliseconds of the last flip for a new one to count. -/
def jumpFlipInterval : ℕ := 16

/-- `Server::redistributePacket`, given the client-bound packet it builds. -/
def redistributePacket (s : Server) (client : ClientNode) (packet : ClientBound)
    (reliable : Bool := true) : Server × List Effect :=
  (s, s.sendPacketToAllExcept client.ptr packet reliable)

/-- `Client::handleGreet` at clock time `now` in nanoseconds. -/
def handleGreet (s : Server) (client : ClientNode) (packet : ToS_Hello) (now : ℕ) :
    Server × List Effect :=
  let s := s.modify client.ptr fun record =>
    { record with
      mIsGhost := packet.isGhost
      mHasGreeting := true
      mUid := packet.uid
      mName := packet.name }
  (s, Server.sendPacketToAll (.playerList (makePlayerListPacket s (some client.ptr))) ++
    Server.sendPacketToAll (.syncClockUpdate (now / 1000)) ++ [.spawnUpload client.ptr])

/-- The first assignment of `handleSingleModeSceneEnter`. -/
def handleSingleModeSceneEnter (s : Server) (client : ClientNode)
    (packet : ToS_SingleModeSceneEnter) : Server × List Effect :=
  (s.modify client.ptr fun record => { record with mPlayerType := packet.playerType },
    [.spawnSceneEnter client.ptr])

/-- The list packet that `handleSingleModeSceneEnter` builds. -/
def sceneEnterList (s : Server) : List PlayerListDataEntry := makePlayerListPacket s

/-- The replay packet for one stored island. Its flag is not written. -/
def replayScenario (island : CString × ℤ) : ClientBound :=
  .scenarioUpdate Uid.zero ⟨island.1.take 128, island.2, none⟩

/-- The replay packet for one stored shine, with the counter read at `count`. -/
def replayGoalItem (count : ℤ) (shine : GoalItemCollectData) : ClientBound :=
  .goalItemInfo ⟨Uid.zero, count, false, some shine.islandID, some shine.scenarioID⟩

/-- The replay packet for one stored toad. -/
def replayToad (toad : ℤ) : ClientBound := .miscMapSync Uid.zero (.toadUnlock toad)

/-- The replay packet for one stored shard. -/
def replayShard (shard : GoalItemCollectData) : ClientBound :=
  .miscMapSync Uid.zero (.shardCollect shard.islandID shard.scenarioID)

/-- Everything `handleSingleModeSceneEnter` sends to the entering client, when
nothing else changes the stored progress meanwhile. -/
def sceneEnterReplay (data : ServerSaveData) : List ClientBound :=
  data.islandToScenarioMap.toList.map replayScenario ++
    data.collectedGoalItems.map (replayGoalItem data.numCollectedGoalItems) ++
    data.unlockedToads.map replayToad ++
    data.collectedShards.map replayShard

/-- `handleGoalItemInfo`. -/
def handleGoalItemInfo (s : Server) (client : ClientNode) (packet : ToS_GoalItemInfo) :
    Server × List Effect :=
  let isAlreadyCollected := s.mSaveData.isGoalItemAlreadyCollected packet.islandID packet.shineID
  let data :=
    if isAlreadyCollected then s.mSaveData
    else { s.mSaveData with
      numCollectedGoalItems := s.mSaveData.numCollectedGoalItems + 1
      collectedGoalItems :=
        s.mSaveData.collectedGoalItems ++ [⟨packet.islandID, packet.shineID⟩] }
  let s := { s with mSaveData := data }
  let distPacket : ToC_GoalItemInfo :=
    { user := client.client.mUid
      numCollectedGoalItems := data.numCollectedGoalItems
      isCollectNewShine := !isAlreadyCollected
      islandID := if isAlreadyCollected then none else some packet.islandID
      shineID := if isAlreadyCollected then none else some packet.shineID }
  (s, s.sendPacketToAllExcept client.ptr (.goalItemInfo distPacket) ++
    s.sendPacket client.client (.goalItemInfo { distPacket with isCollectNewShine := false }) ++
    [.save data])

/-- `handleScenarioUpdate`: relay, then store. -/
def handleScenarioUpdate (s : Server) (client : ClientNode) (data : ScenarioUpdateData) :
    Server × List Effect :=
  let effects := (redistributePacket s client (.scenarioUpdate client.client.mUid data)).2
  ({ s with mSaveData := { s.mSaveData with
      islandToScenarioMap := s.mSaveData.islandToScenarioMap.insert data.islandName data.scenario } },
    effects)

/-- Whether `handleJumpFlip` lets a packet pass at time `now`. Its static clock
value starts at the time of the first call, which is thereby too early. -/
def jumpFlipPasses (s : Server) (now : ℕ) : Bool :=
  match s.lastFlip with
  | none => false
  | some last => jumpFlipInterval ≤ (now - last) / 1000000

/-- `handleJumpFlip` at time `now` in nanoseconds. -/
def handleJumpFlip (s : Server) (client : ClientNode) (data : JumpFlipData) (now : ℕ) :
    Server × List Effect :=
  if jumpFlipPasses s now then
    let flipState := !s.mSaveData.jumpFlipState
    let s := { s with
      lastFlip := some now
      mSaveData := { s.mSaveData with jumpFlipState := flipState } }
    let redistPacket : ClientBound := .jumpFlip client.client.mUid ⟨flipState⟩
    (s, s.sendPacketToAllExcept client.ptr redistPacket false ++
      if data.flipState ≠ flipState then s.sendPacket client.client redistPacket false else [])
  else
    ({ s with lastFlip := some (s.lastFlip.getD now) }, [])

/-- `handleMiscMapSync`: relay, then store toads once and shards always. -/
def handleMiscMapSync (s : Server) (client : ClientNode) (data : MiscMapSyncData) :
    Server × List Effect :=
  let relayed := redistributePacket s client (.miscMapSync client.client.mUid data)
  match data with
  | .toadUnlock character =>
    if character ∈ s.mSaveData.unlockedToads then relayed
    else
      let saveData := { s.mSaveData with
        unlockedToads := s.mSaveData.unlockedToads ++ [character] }
      ({ s with mSaveData := saveData }, relayed.2 ++ [.save saveData])
  | .shardCollect zoneID shardID =>
    let saveData := { s.mSaveData with
      collectedShards := s.mSaveData.collectedShards ++ [⟨zoneID, shardID⟩] }
    ({ s with mSaveData := saveData }, relayed.2 ++ [.save saveData])
  | _ => relayed

/-- `handlePuppetPose`: relay unreliably, then remember the position. -/
def handlePuppetPose (s : Server) (client : ClientNode) (data : PuppetPoseData) :
    Server × List Effect :=
  let effects := (redistributePacket s client (.puppetPose client.client.mUid data) false).2
  (s.modify client.ptr fun record => { record with mTrans := data.trans }, effects)

/-- No chunk of an upload session has arrived. -/
def sessionEmpty (s : Server) : Bool := (List.finRange 8).all fun i => !s.mSaveDataAck i

/-- All chunks of the upload session have arrived. -/
def sessionFull (s : Server) : Bool := (List.finRange 8).all fun i => s.mSaveDataAck i

/-- The start of `handleSaveChunk`: an empty session passes to the sender. -/
def openSession (s : Server) (client : ℕ) : Server :=
  if sessionEmpty s then
    { s with mSharedSaveWorkBufferSize := 0, mCurrentSaveDataUploader := some client }
  else s

/-- The index test of the chunk handlers. -/
def chunkSlot (packet : SaveDataChunk) : Option (Fin 8) :=
  if h : 0 ≤ packet.chunkIndex ∧ packet.chunkIndex < 8 then
    some ⟨packet.chunkIndex.toNat, by omega⟩
  else none

/-- The store step of `handleSaveChunk`: copy, then count a first arrival. -/
def storeChunk (s : Server) (slot : Fin 8) (packet : SaveDataChunk) : Option Server :=
  (memcpy s.mSharedSaveWorkBuffer (sSaveDataChunkSize * slot) packet.data 0 packet.size.toNat).map
    fun buffer =>
      let s := { s with mSharedSaveWorkBuffer := buffer }
      if s.mSaveDataAck slot = false then
        { s with
          mSharedSaveWorkBufferSize := s.mSharedSaveWorkBufferSize + packet.size.toNat
          mSaveDataAck := Function.update s.mSaveDataAck slot true }
      else s

/-- The end of `handleSaveChunk` for a full session: clear it, then copy the
work buffer into the shared save and write the save files. -/
def commitSession (s : Server) : Option (Server × List Effect) :=
  (memcpy s.mSaveData.sharedSave 0 s.mSharedSaveWorkBuffer 0 s.mSharedSaveWorkBufferSize).map
    fun shared =>
      let data := { s.mSaveData with
        sharedSaveSize := s.mSharedSaveWorkBufferSize
        sharedSave := shared }
      ({ s with
          mSaveDataAck := fun _ => false
          mCurrentSaveDataUploader := none
          mSaveData := data }, [.save data])

/-- `handleSaveChunk` for the record at `client`. -/
def handleSaveChunk (s : Server) (client : ℕ) (packet : SaveDataChunk) :
    Option (Server × List Effect) :=
  let s := openSession s client
  if s.mCurrentSaveDataUploader ≠ some client then some (s, [])
  else
    match chunkSlot packet with
    | none => some (s, [])
    | some slot =>
      if packet.size.toNat > sSaveDataChunkSize then some (s, [])
      else
        (storeChunk s slot packet).bind fun s =>
          if sessionFull s then commitSession s else some (s, [])

/-- The dispatch of `ProjectPacketHandler::handlePacket` over `sEntries`. -/
def handlePacket (s : Server) (client : ClientNode) (packet : ServerBound) (now : ℕ) :
    Option (Server × List Effect) :=
  match packet with
  | .hello packet => some (handleGreet s client packet now)
  | .log _ _ => some (s, [])
  | .singleModeSceneEnter packet => some (handleSingleModeSceneEnter s client packet)
  | .puppetPose data => some (handlePuppetPose s client data)
  | .action data => some (redistributePacket s client (.action client.client.mUid data) false)
  | .playerFigureChange data =>
    some (redistributePacket s client (.playerFigureChange client.client.mUid data))
  | .goalItemInfo packet => some (handleGoalItemInfo s client packet)
  | .phaseUnlock data => some (redistributePacket s client (.phaseUnlock client.client.mUid data))
  | .scenarioUpdate data => some (handleScenarioUpdate s client data)
  | .disasterModeControllerInternalUpdate data =>
    some (redistributePacket s client
      (.disasterModeControllerInternalUpdate client.client.mUid data))
  | .miscMapSync data => some (handleMiscMapSync s client data)
  | .jumpFlip data => some (handleJumpFlip s client data now)
  | .saveDataChunk packet => handleSaveChunk s client.ptr packet

/-- An event of the ENet host. -/
inductive ENetEvent where
  /-- A peer connected; its record is allocated at `ptr`. -/
  | connect (peer : ENetPeer) (ptr : ℕ)
  /-- A packet of a peer arrived at clock time `now`. -/
  | receive (peer : ENetPeer) (packet : ServerBound) (now : ℕ)
  /-- A peer disconnected. -/
  | disconnect (peer : ENetPeer)

/-- `ENET_EVENT_TYPE_CONNECT`. The host counts the peer as connected; a record
under its hash is replaced. -/
def onConnect (s : Server) (peer : ENetPeer) (ptr : ℕ) : Server :=
  let hash := calcEnetAddressHashCode peer.address
  let s := { s with peers := peer :: s.peers.filter fun other => other != peer }
  let s := if s.contains hash then s.erase hash else s
  { s with mClients := ⟨hash, ptr, { mPeer := peer }⟩ :: s.mClients }

/-- `ENET_EVENT_TYPE_RECEIVE`. -/
def onReceive (s : Server) (peer : ENetPeer) (packet : ServerBound) (now : ℕ) :
    Option (Server × List Effect) :=
  match s.find? (calcEnetAddressHashCode peer.address) with
  | none => some (s, [.disconnectPeer peer])
  | some node =>
    match packet with
    | .hello _ => handlePacket s node packet now
    | _ => if node.client.mHasGreeting then handlePacket s node packet now else some (s, [])

/-- `ENET_EVENT_TYPE_DISCONNECT`. `Client::disconnect` does nothing. -/
def onDisconnect (s : Server) (peer : ENetPeer) : Server × List Effect :=
  let hash := calcEnetAddressHashCode peer.address
  let s := { s with peers := s.peers.filter fun other => other != peer }
  if s.contains hash then
    let s := s.erase hash
    (s, Server.sendPacketToAll (.playerList (makePlayerListPacket s)))
  else (s, [])

/-- `Server::exeService` for one event. -/
def exeService (s : Server) : ENetEvent → Option (Server × List Effect)
  | .connect peer ptr => some (onConnect s peer ptr, [])
  | .receive peer packet now => onReceive s peer packet now
  | .disconnect peer => some (onDisconnect s peer)

/-- The event loop as a step function on the server alone. -/
def serviceStep (s : Server) (event : ENetEvent) : Option Server :=
  (exeService s event).map Prod.fst

/-- A server that no client has connected to, with given stored progress. -/
def Server.fresh (data : ServerSaveData) : Server where
  peers := []
  mClients := []
  mSaveData := data
  mCurrentSaveDataUploader := none
  mSaveDataAck := fun _ => false
  mSharedSaveWorkBufferSize := 0
  mSharedSaveWorkBuffer := Buffer.zero sharedSaveCapacity
  lastFlip := none

end BfMultiplayer.ServerHandlers

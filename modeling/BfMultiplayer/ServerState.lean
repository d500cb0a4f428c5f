import BfMultiplayer.Packets
import Std.Data.ExtTreeMap

/-!
# State of the server

The stored progress, the client table, the save-upload session and what the
server does to the outside: packets it queues and save files it writes. The
client table is an unordered map from address hashes to records that keep
their place in memory; a record is told apart by that place, as the code does
with its `Client*`.
-/

namespace BfMultiplayer.ServerState

open ByteBuffer Packets

/-- Capacity of `sharedSave` and of `mSharedSaveWorkBuffer`. -/
def sharedSaveCapacity : ℕ := 65535 + 0x100

/-- A collected shine, or a collected shard under the same two fields. -/
structure GoalItemCollectData where
  /-- Island of a shine, zone of a shard. -/
  islandID : ℤ
  /-- Number of the shine or shard. -/
  scenarioID : ℤ
  deriving DecidableEq

/-- `std::map<std::string, int>`, ordered by the bytes of its keys. -/
abbrev ScenarioMap := Std.ExtTreeMap CString ℤ compare

/-- `ServerSaveData`. -/
structure ServerSaveData where
  /-- Global shine counter. -/
  numCollectedGoalItems : ℤ
  /-- Shines in the order of their first reports. -/
  collectedGoalItems : List GoalItemCollectData
  /-- Shards in the order of their packets. -/
  collectedShards : List GoalItemCollectData
  /-- Scenario of each island that was changed. -/
  islandToScenarioMap : ScenarioMap
  /-- Unlocked toad characters. -/
  unlockedToads : List ℤ
  /-- State of all jump panels. -/
  jumpFlipState : Bool
  /-- How many bytes of `sharedSave` are the save. -/
  sharedSaveSize : ℕ
  /-- The shared save. -/
  sharedSave : Buffer sharedSaveCapacity

/-- The member initialisers; the shared save array is left as it is. -/
def ServerSaveData.fresh (sharedSave : Buffer sharedSaveCapacity) : ServerSaveData where
  numCollectedGoalItems := 0
  collectedGoalItems := []
  collectedShards := []
  islandToScenarioMap := ∅
  unlockedToads := []
  jumpFlipState := false
  sharedSaveSize := 0
  sharedSave := sharedSave

/-- The linear search for a pair that was already collected. -/
def ServerSaveData.isGoalItemAlreadyCollected (data : ServerSaveData) (islandID scenarioID : ℤ) :
    Bool :=
  data.collectedGoalItems.any fun shine =>
    shine.islandID == islandID && shine.scenarioID == scenarioID

/-- `Client`, the record the server keeps for a connected peer. -/
structure Client where
  /-- The peer it was made for. -/
  mPeer : ENetPeer
  /-- Set by the first `ToS_Hello`. -/
  mHasGreeting : Bool := false
  /-- User id of the last greeting. -/
  mUid : Uid := Uid.zero
  /-- Nickname of the last greeting. -/
  mName : Nickname := Buffer.zero 33
  /-- Ghost flag of the last greeting. -/
  mIsGhost : Bool := false
  /-- Last position. -/
  mTrans : Vector3f := ⟨0, 0, 0⟩
  /-- Player type of the last scene entry. -/
  mPlayerType : UInt8 := 0
  /-- Figure; nothing in the server assigns it. -/
  mPlayerFigure : UInt8 := 0

/-- A node of the client table: key, place in memory and record. -/
structure ClientNode where
  /-- Address hash, the key. -/
  hash : ℕ
  /-- Place of the record; what a `Client*` to it compares by. -/
  ptr : ℕ
  /-- The record. -/
  client : Client

/-- `Server`, with the peers its ENet host has connected. -/
structure Server where
  /-- Peers connected at the ENet level, the targets of a broadcast. -/
  peers : List ENetPeer
  /-- `mClients` in its current iteration order. -/
  mClients : List ClientNode
  /-- Stored progress. -/
  mSaveData : ServerSaveData
  /-- Owner of the upload session; `none` is the null pointer. -/
  mCurrentSaveDataUploader : Option ℕ
  /-- Which chunks of the session have arrived. -/
  mSaveDataAck : Fin 8 → Bool
  /-- Sum of the sizes of the chunks of the session. -/
  mSharedSaveWorkBufferSize : ℕ
  /-- Where the chunks are collected. -/
  mSharedSaveWorkBuffer : Buffer sharedSaveCapacity
  /-- The static clock value of `handleJumpFlip` in nanoseconds, `none` before
  its first call. -/
  lastFlip : Option ℕ

/-- What a handler does to the outside. -/
inductive Effect where
  /-- `enet_peer_send` to one peer. -/
  | send (peer : ENetPeer) (packet : ClientBound) (reliable : Bool)
  /-- `enet_host_broadcast`. -/
  | broadcast (packet : ClientBound) (reliable : Bool)
  /-- `ServerSaveData::save` of these values. -/
  | save (data : ServerSaveData)
  /-- A detached `uploadSaveThread` of this record. -/
  | spawnUpload (ptr : ℕ)
  /-- A detached `handleSingleModeSceneEnter` of this record. -/
  | spawnSceneEnter (ptr : ℕ)
  /-- `enet_peer_disconnect`. -/
  | disconnectPeer (peer : ENetPeer)

/-- `mClients.find(hash)`. -/
def Server.find? (s : Server) (hash : ℕ) : Option ClientNode :=
  s.mClients.find? fun node => node.hash == hash

/-- `mClients.contains(hash)`. -/
def Server.contains (s : Server) (hash : ℕ) : Bool := (s.find? hash).isSome

/-- `mClients.erase(hash)`. -/
def Server.erase (s : Server) (hash : ℕ) : Server :=
  { s with mClients := s.mClients.filter fun node => node.hash != hash }

/-- Assign to the record behind a `Client*`. -/
def Server.modify (s : Server) (ptr : ℕ) (f : Client → Client) : Server :=
  { s with mClients := s.mClients.map fun node =>
      if node.ptr = ptr then { node with client := f node.client } else node }

/-- `Server::sendPacketToAll`. -/
def Server.sendPacketToAll (packet : ClientBound) (reliable : Bool := true) : List Effect :=
  [.broadcast packet reliable]

/-- `Server::sendPacketToAllExcept`, in iteration order. -/
def Server.sendPacketToAllExcept (s : Server) (except : ℕ) (packet : ClientBound)
    (reliable : Bool := true) : List Effect :=
  (s.mClients.filter fun node => node.ptr != except).map fun node =>
    .send node.client.mPeer packet reliable

/-- `Client::sendPacket`: nothing is sent to a peer that is not connected. -/
def Server.sendPacket (s : Server) (client : Client) (packet : ClientBound)
    (reliable : Bool := true) : List Effect :=
  if client.mPeer ∈ s.peers then [.send client.mPeer packet reliable] else []

/-- The entry that `makePlayerListPacket` fills for a record. The name field
starts as zeros and receives `sizeof(nn::account::Uid)` bytes. -/
def playerListEntry (newClient : Option ℕ) (node : ClientNode) : PlayerListDataEntry where
  user := node.client.mUid
  name := blit (Buffer.zero 33) 0 node.client.mName 0 sizeofUid
  playerType := node.client.mPlayerType
  playerFigure := node.client.mPlayerFigure
  isNew := newClient == some node.ptr
  isGhost := false

/-- `ServerUtil::makePlayerListPacket`: one entry for every record that is no
ghost, in iteration order. -/
def makePlayerListPacket (s : Server) (newClient : Option ℕ := none) : List PlayerListDataEntry :=
  (s.mClients.filter fun node => !node.client.mIsGhost).map (playerListEntry newClient)

/-- The packets among some effects that reach a peer, in the order in which
they were queued. A broadcast reaches it while its host counts it as connected. -/
def sentTo (s : Server) (peer : ENetPeer) (effects : List Effect) : List ClientBound :=
  effects.filterMap fun
    | .send target packet _ => if target = peer then some packet else none
    | .broadcast packet _ => if peer ∈ s.peers then some packet else none
    | _ => none

/-- The values written by the saves among some effects, oldest first. -/
def savedValues (effects : List Effect) : List ServerSaveData :=
  effects.filterMap fun
    | .save data => some data
    | _ => none

/-- The linear search finds exactly the pairs in the list. -/
theorem isGoalItemAlreadyCollected_iff (data : ServerSaveData) (islandID scenarioID : ℤ) :
    data.isGoalItemAlreadyCollected islandID scenarioID = true ↔
      ⟨islandID, scenarioID⟩ ∈ data.collectedGoalItems := by
  simp only [ServerSaveData.isGoalItemAlreadyCollected, List.any_eq_true, Bool.and_eq_true,
    beq_iff_eq]
  constructor
  · rintro ⟨⟨island, scenario⟩, hmem, rfl, rfl⟩
    exact hmem
  · intro hmem
    exact ⟨_, hmem, rfl, rfl⟩

/-- Inserting the pairs of a map one by one gives the map back. -/
theorem foldl_insert_toList (map : ScenarioMap) :
    map.toList.foldl (fun acc pair => acc.insert pair.1 pair.2) ∅ = map := by
  have hmany : map.toList.foldl (fun acc pair => acc.insert pair.1 pair.2) ∅ =
      (∅ : ScenarioMap).insertMany map.toList := Std.ExtTreeMap.insertMany_list_eq_foldl.symm
  rw [hmany]
  apply Std.ExtTreeMap.ext_getElem?
  intro key
  cases hkey : map[key]? with
  | some value =>
    exact Std.ExtTreeMap.getElem?_insertMany_list_of_mem Std.ReflCmp.compare_self
      Std.ExtTreeMap.distinct_keys_toList
      (Std.ExtTreeMap.mem_toList_iff_getElem?_eq_some.mpr hkey)
  | none =>
    have habsent : (map.toList.map Prod.fst).contains key = false := by
      rw [Std.ExtTreeMap.map_fst_toList_eq_keys, Std.ExtTreeMap.contains_keys,
        Std.ExtTreeMap.contains_eq_isSome_getElem?, hkey]
      rfl
    rw [Std.ExtTreeMap.getElem?_insertMany_list_of_contains_eq_false habsent]
    exact Std.ExtTreeMap.getElem?_empty

/-- A packet sent to all but one is sent to each of them. -/
theorem mem_sendPacketToAllExcept {s : Server} {except : ℕ} {packet : ClientBound} {reliable : Bool}
    {effect : Effect} (h : effect ∈ s.sendPacketToAllExcept except packet reliable) :
    ∃ peer, effect = .send peer packet reliable := by
  obtain ⟨node, -, hsend⟩ := List.mem_map.mp h
  exact ⟨node.client.mPeer, hsend.symm⟩

/-- A packet sent to one client is sent to its peer. -/
theorem mem_sendPacket {s : Server} {client : Client} {packet : ClientBound} {reliable : Bool}
    {effect : Effect} (h : effect ∈ s.sendPacket client packet reliable) :
    effect = .send client.mPeer packet reliable := by
  unfold Server.sendPacket at h
  split at h
  · exact List.mem_singleton.mp h
  · exact absurd h List.not_mem_nil

/-- Effects reach a peer in order. -/
theorem sentTo_append (s : Server) (peer : ENetPeer) (first rest : List Effect) :
    sentTo s peer (first ++ rest) = sentTo s peer first ++ sentTo s peer rest :=
  List.filterMap_append

end BfMultiplayer.ServerState

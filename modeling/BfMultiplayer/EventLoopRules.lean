import BfMultiplayer.SaveChunkRules

/-!
# What one event can do to the server

The client table changes on a connection, a disconnection and by assignments
to single records; the upload session changes by save chunks alone. A received
packet is dropped, or it reaches the handler of its type with the record found
under the address hash of its peer. Which effects a handler can have is said once
for each kind of packet. Invariants of the server are derived from these facts,
without unfolding a handler again.
-/

namespace BfMultiplayer.EventLoopRules

open ByteBuffer Packets ServerState ServerHandlers SaveChunkRules

/-- The upload session, and the table up to the contents of its records. -/
structure KeepsSession (s t : Server) : Prop where
  /-- The same owner. -/
  uploader : t.mCurrentSaveDataUploader = s.mCurrentSaveDataUploader
  /-- The same flags. -/
  ack : t.mSaveDataAck = s.mSaveDataAck
  /-- The same size. -/
  size : t.mSharedSaveWorkBufferSize = s.mSharedSaveWorkBufferSize
  /-- The same places of records, in the same order. -/
  ptrs : t.mClients.map ClientNode.ptr = s.mClients.map ClientNode.ptr

/-- Assigning to a record moves no record. -/
theorem modify_ptrs (s : Server) (ptr : ℕ) (f : Client → Client) :
    (s.modify ptr f).mClients.map ClientNode.ptr = s.mClients.map ClientNode.ptr := by
  simp only [Server.modify, List.map_map]
  refine List.map_congr_left fun node _ => ?_
  simp only [Function.comp_apply]
  split <;> rfl

/-- Assigning to a record keeps the session. -/
theorem modify_keepsSession (s : Server) (ptr : ℕ) (f : Client → Client) :
    KeepsSession s (s.modify ptr f) :=
  ⟨rfl, rfl, rfl, modify_ptrs s ptr f⟩

/-- A server whose session and table fields are unchanged. -/
theorem KeepsSession.refl (s : Server) : KeepsSession s s := ⟨rfl, rfl, rfl, rfl⟩

/-- Records found again at their places. -/
theorem KeepsSession.exists_ptr {s t : Server} (h : KeepsSession s t) {ptr : ℕ} :
    (∃ node ∈ t.mClients, node.ptr = ptr) ↔ ∃ node ∈ s.mClients, node.ptr = ptr := by
  rw [← List.mem_map, ← List.mem_map, h.ptrs]

/-- No packet other than a save chunk touches the session. -/
theorem handlePacket_keepsSession {s t : Server} {node : ClientNode} {packet : ServerBound}
    {now : ℕ} {effects : List Effect} (h : handlePacket s node packet now = some (t, effects))
    (hne : ∀ chunk, packet ≠ .saveDataChunk chunk) : KeepsSession s t := by
  cases packet with
  | saveDataChunk chunk => exact absurd rfl (hne chunk)
  | hello packet =>
    cases h
    exact modify_keepsSession s _ _
  | singleModeSceneEnter packet =>
    cases h
    exact modify_keepsSession s _ _
  | puppetPose data =>
    cases h
    exact modify_keepsSession s _ _
  | goalItemInfo packet =>
    cases h
    exact ⟨rfl, rfl, rfl, rfl⟩
  | scenarioUpdate data =>
    cases h
    exact ⟨rfl, rfl, rfl, rfl⟩
  | jumpFlip data =>
    simp only [handlePacket, handleJumpFlip, Option.some.injEq] at h
    split at h <;> cases h <;> exact ⟨rfl, rfl, rfl, rfl⟩
  | miscMapSync data =>
    simp only [handlePacket, handleMiscMapSync, Option.some.injEq] at h
    split at h
    · split at h <;> cases h <;> exact ⟨rfl, rfl, rfl, rfl⟩
    · cases h
      exact ⟨rfl, rfl, rfl, rfl⟩
    · cases h
      exact ⟨rfl, rfl, rfl, rfl⟩
  | log _ _ =>
    cases h
    exact .refl s
  | action _ =>
    cases h
    exact .refl s
  | playerFigureChange _ =>
    cases h
    exact .refl s
  | phaseUnlock _ =>
    cases h
    exact .refl s
  | disasterModeControllerInternalUpdate _ =>
    cases h
    exact .refl s

/-- Only a save chunk can leave the arrays of the server. -/
theorem handlePacket_isSome (s : Server) (node : ClientNode) (now : ℕ) {packet : ServerBound}
    (hne : ∀ chunk, packet ≠ .saveDataChunk chunk) : (handlePacket s node packet now).isSome := by
  cases packet with
  | saveDataChunk chunk => exact absurd rfl (hne chunk)
  | _ => rfl

/-- Whether a packet tells of shines. -/
def isGoalItemInfo : ClientBound → Bool
  | .goalItemInfo _ => true
  | _ => false

/-- The effects that a handled packet of each kind can have. -/
inductive HandlerEffect (node : ClientNode) : ServerBound → Effect → Prop where
  /-- A greeting tells everybody who plays and what time it is. -/
  | greeted (packet : ToS_Hello) {sent : ClientBound} (hkind : isGoalItemInfo sent = false)
      (reliable : Bool) : HandlerEffect node (.hello packet) (.broadcast sent reliable)
  /-- It also starts the upload of the save. -/
  | upload (packet : ToS_Hello) : HandlerEffect node (.hello packet) (.spawnUpload node.ptr)
  /-- Entering a scene starts the replay of the progress. -/
  | sceneEnter (packet : ToS_SingleModeSceneEnter) :
      HandlerEffect node (.singleModeSceneEnter packet) (.spawnSceneEnter node.ptr)
  /-- A report is answered by shine packets. -/
  | shine (report : ToS_GoalItemInfo) (peer : ENetPeer) (sent : ToC_GoalItemInfo) (reliable : Bool) :
      HandlerEffect node (.goalItemInfo report) (.send peer (.goalItemInfo sent) reliable)
  /-- Any other packet is at most relayed. -/
  | relayed (packet : ServerBound) (peer : ENetPeer) {sent : ClientBound}
      (hkind : isGoalItemInfo sent = false) (reliable : Bool) :
      HandlerEffect node packet (.send peer sent reliable)
  /-- The progress is saved. -/
  | saved (packet : ServerBound) (data : ServerSaveData) : HandlerEffect node packet (.save data)

/-- A relayed packet is sent and nothing else. -/
theorem redistributePacket_effects {s : Server} {node : ClientNode} {packet : ServerBound}
    {sent : ClientBound} {reliable : Bool} (hkind : isGoalItemInfo sent = false) :
    ∀ effect ∈ (redistributePacket s node sent reliable).2, HandlerEffect node packet effect := by
  intro effect heffect
  obtain ⟨peer, rfl⟩ := mem_sendPacketToAllExcept heffect
  exact .relayed packet peer hkind reliable

/-- A save after some effects. -/
theorem HandlerEffect.and_save {node : ClientNode} {packet : ServerBound} {effects : List Effect}
    (h : ∀ effect ∈ effects, HandlerEffect node packet effect) (data : ServerSaveData) :
    ∀ effect ∈ effects ++ [.save data], HandlerEffect node packet effect := by
  intro effect heffect
  rcases List.mem_append.mp heffect with hold | hsave
  · exact h effect hold
  · rw [List.mem_singleton.mp hsave]
    exact .saved packet data

/-- The effects of a report. -/
theorem handleGoalItemInfo_effects (s : Server) (node : ClientNode) (report : ToS_GoalItemInfo) :
    ∀ effect ∈ (handleGoalItemInfo s node report).2,
      HandlerEffect node (.goalItemInfo report) effect := by
  refine HandlerEffect.and_save (fun effect heffect => ?_) _
  rcases List.mem_append.mp heffect with hothers | hreporter
  · obtain ⟨peer, rfl⟩ := mem_sendPacketToAllExcept hothers
    exact .shine report peer _ _
  · rw [mem_sendPacket hreporter]
    exact .shine report _ _ _

/-- The effects of a collectible. -/
theorem handleMiscMapSync_effects (s : Server) (node : ClientNode) (data : MiscMapSyncData) :
    ∀ effect ∈ (handleMiscMapSync s node data).2, HandlerEffect node (.miscMapSync data) effect := by
  have hrelay : ∀ effect ∈ (redistributePacket s node (.miscMapSync node.client.mUid data)).2,
      HandlerEffect node (.miscMapSync data) effect :=
    redistributePacket_effects rfl
  cases data with
  | toadUnlock character =>
    simp only [handleMiscMapSync]
    split
    · exact hrelay
    · exact HandlerEffect.and_save hrelay _
  | shardCollect zoneID shardID => exact HandlerEffect.and_save hrelay _
  | _ => exact hrelay

/-- The effects of a flip. -/
theorem handleJumpFlip_effects (s : Server) (node : ClientNode) (data : JumpFlipData) (now : ℕ) :
    ∀ effect ∈ (handleJumpFlip s node data now).2, HandlerEffect node (.jumpFlip data) effect := by
  intro effect heffect
  unfold handleJumpFlip at heffect
  split at heffect
  · rcases List.mem_append.mp heffect with hothers | hsender
    · exact redistributePacket_effects rfl effect hothers
    · split at hsender
      · rw [mem_sendPacket hsender]
        exact .relayed _ _ rfl _
      · exact absurd hsender List.not_mem_nil
  · exact absurd heffect List.not_mem_nil

/-- The effects of a handled packet. -/
theorem handlePacket_effects {s t : Server} {node : ClientNode} {packet : ServerBound} {now : ℕ}
    {effects : List Effect} (h : handlePacket s node packet now = some (t, effects)) :
    ∀ effect ∈ effects, HandlerEffect node packet effect := by
  have hnone : ∀ effect ∈ ([] : List Effect), HandlerEffect node packet effect :=
    fun effect heffect => absurd heffect List.not_mem_nil
  cases packet with
  | hello packet =>
    cases h
    intro effect heffect
    rcases List.mem_append.mp heffect with htold | hupload
    · rcases List.mem_append.mp htold with hlist | hclock
      · rw [List.mem_singleton.mp hlist]
        exact .greeted packet rfl _
      · rw [List.mem_singleton.mp hclock]
        exact .greeted packet rfl _
    · rw [List.mem_singleton.mp hupload]
      exact .upload packet
  | log _ _ =>
    cases h
    exact hnone
  | singleModeSceneEnter packet =>
    cases h
    intro effect heffect
    rw [List.mem_singleton.mp heffect]
    exact .sceneEnter packet
  | goalItemInfo report =>
    cases h
    exact handleGoalItemInfo_effects s node report
  | miscMapSync data =>
    have hresult : handleMiscMapSync s node data = (t, effects) := Option.some.inj h
    have heffects := handleMiscMapSync_effects s node data
    rwa [hresult] at heffects
  | jumpFlip data =>
    have hresult : handleJumpFlip s node data now = (t, effects) := Option.some.inj h
    have heffects := handleJumpFlip_effects s node data now
    rwa [hresult] at heffects
  | saveDataChunk packet =>
    cases handleSaveChunk_step h with
    | rejected _ => exact hnone
    | stored _ _ _ => exact hnone
    | committed _ _ _ _ => exact HandlerEffect.and_save hnone _
  | _ =>
    cases h
    exact redistributePacket_effects rfl

/-- The record found under a hash is in the table. -/
theorem find?_mem {s : Server} {hash : ℕ} {node : ClientNode} (h : s.find? hash = some node) :
    node ∈ s.mClients ∧ node.hash = hash :=
  ⟨List.mem_of_find?_eq_some h, by simpa using List.find?_some h⟩

/-- A packet is dispatched when its peer has a record, which has greeted unless
the packet is the greeting. -/
def Dispatched (s : Server) (peer : ENetPeer) (packet : ServerBound) (node : ClientNode) : Prop :=
  s.find? (calcEnetAddressHashCode peer.address) = some node ∧
    (node.client.mHasGreeting = true ∨ ∃ hello, packet = .hello hello)

/-- A dispatched packet is handled with the record of its peer. -/
theorem onReceive_of_dispatched {s : Server} {peer : ENetPeer} {packet : ServerBound}
    {node : ClientNode} (h : Dispatched s peer packet node) (now : ℕ) :
    onReceive s peer packet now = handlePacket s node packet now := by
  obtain ⟨hfind, hgreet⟩ := h
  simp only [onReceive, hfind]
  rcases hgreet with hgreet | ⟨hello, rfl⟩
  · cases packet <;> simp only [hgreet, if_true]
  · rfl

/-- A packet that is not dispatched leaves the server as it is; at most its
peer is disconnected. -/
theorem onReceive_of_not_dispatched {s : Server} {peer : ENetPeer} {packet : ServerBound}
    (h : ∀ node, ¬Dispatched s peer packet node) (now : ℕ) :
    ∃ effects, onReceive s peer packet now = some (s, effects) ∧
      (effects = [] ∨ effects = [.disconnectPeer peer]) := by
  cases hfind : s.find? (calcEnetAddressHashCode peer.address) with
  | none => exact ⟨_, by simp only [onReceive, hfind], Or.inr rfl⟩
  | some node =>
    have hgreet : node.client.mHasGreeting ≠ true := fun hg => h node ⟨hfind, Or.inl hg⟩
    cases packet with
    | hello packet => exact absurd ⟨hfind, Or.inr ⟨packet, rfl⟩⟩ (h node)
    | _ => exact ⟨_, by simp only [onReceive, hfind, if_neg hgreet], Or.inl rfl⟩

/-- A received packet is dropped or handled with a record of the table. -/
theorem onReceive_cases {s t : Server} {peer : ENetPeer} {packet : ServerBound} {now : ℕ}
    {effects : List Effect} (h : onReceive s peer packet now = some (t, effects)) :
    (t = s ∧ (effects = [] ∨ effects = [.disconnectPeer peer])) ∨
      ∃ node, Dispatched s peer packet node ∧
        handlePacket s node packet now = some (t, effects) := by
  by_cases hd : ∃ node, Dispatched s peer packet node
  · obtain ⟨node, hnode⟩ := hd
    rw [onReceive_of_dispatched hnode] at h
    exact Or.inr ⟨node, hnode, h⟩
  · obtain ⟨_, he, hnone⟩ := onReceive_of_not_dispatched (fun node hn => hd ⟨node, hn⟩) now
    rw [he] at h
    cases h
    exact Or.inl ⟨rfl, hnone⟩

/-- Erasing keeps the records under other hashes. -/
theorem mem_erase_iff {s : Server} {hash : ℕ} {node : ClientNode} :
    node ∈ (s.erase hash).mClients ↔ node ∈ s.mClients ∧ node.hash ≠ hash := by
  simp [Server.erase]

/-- A new connection keeps the records under other hashes. -/
theorem mem_onConnect_of_mem {s : Server} {peer : ENetPeer} {ptr : ℕ} {node : ClientNode}
    (h : node ∈ s.mClients) (hne : node.hash ≠ calcEnetAddressHashCode peer.address) :
    node ∈ (onConnect s peer ptr).mClients := by
  unfold onConnect
  refine List.mem_cons_of_mem _ ?_
  split
  · exact mem_erase_iff.mpr ⟨h, hne⟩
  · exact h

/-- A disconnection keeps the records under other hashes. -/
theorem mem_onDisconnect_of_mem {s : Server} {peer : ENetPeer} {node : ClientNode}
    (h : node ∈ s.mClients) (hne : node.hash ≠ calcEnetAddressHashCode peer.address) :
    node ∈ (onDisconnect s peer).1.mClients := by
  unfold onDisconnect
  dsimp only
  split
  · exact mem_erase_iff.mpr ⟨h, hne⟩
  · exact h

/-- A connection keeps the upload session. -/
theorem onConnect_session (s : Server) (peer : ENetPeer) (ptr : ℕ) :
    (onConnect s peer ptr).mSaveDataAck = s.mSaveDataAck ∧
      (onConnect s peer ptr).mCurrentSaveDataUploader = s.mCurrentSaveDataUploader ∧
      (onConnect s peer ptr).mSharedSaveWorkBufferSize = s.mSharedSaveWorkBufferSize := by
  unfold onConnect
  dsimp only
  split <;> exact ⟨rfl, rfl, rfl⟩

/-- A disconnection keeps the upload session. -/
theorem onDisconnect_session (s : Server) (peer : ENetPeer) :
    (onDisconnect s peer).1.mSaveDataAck = s.mSaveDataAck ∧
      (onDisconnect s peer).1.mCurrentSaveDataUploader = s.mCurrentSaveDataUploader ∧
      (onDisconnect s peer).1.mSharedSaveWorkBufferSize = s.mSharedSaveWorkBufferSize := by
  unfold onDisconnect
  dsimp only
  split <;> exact ⟨rfl, rfl, rfl⟩

/-- Peers for concrete runs. -/
def peerAt (slot : ℕ) : ENetPeer := ⟨slot, ⟨UInt32.ofNat slot, 7089⟩⟩

/-- A greeting of the client in a peer slot. -/
def greetingOf (slot : ℕ) : ENetEvent :=
  .receive (peerAt slot) (.hello ⟨⟨UInt64.ofNat slot, 0⟩, Buffer.zero 33, false⟩) 0

/-- A full chunk with a given index. -/
def fullChunk (index : ℤ) : SaveDataChunk := ⟨index, 0x2100, Buffer.zero sSaveDataChunkSize⟩

end BfMultiplayer.EventLoopRules

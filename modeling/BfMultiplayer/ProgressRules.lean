import BfMultiplayer.ClientLinks

/-!
# What one event can do to the stored progress

A packet that is handled leaves the stored progress as it is or changes one
field of it, and saves the new value, the old one or nothing. Connections,
disconnections and dropped packets neither change nor save anything. What
holds of the progress over whole runs is derived from these cases.
-/

namespace BfMultiplayer.ProgressRules

open ByteBuffer Packets ServerState ServerHandlers SaveChunkRules EventLoopRules ClientLinks

/-- Packets that always tell the server about a shine, an island, a toad or a
shard. -/
def reportsProgress : ServerBound → Bool
  | .goalItemInfo _ => true
  | .scenarioUpdate _ => true
  | .miscMapSync (.toadUnlock _) => true
  | .miscMapSync (.shardCollect _ _) => true
  | _ => false

/-- What a handled packet does to the stored progress, and which values it
saves. -/
inductive ProgressStep (before : ServerSaveData) :
    ServerBound → ServerSaveData → List ServerSaveData → Prop where
  /-- Nothing is stored. -/
  | same {packet : ServerBound} (h : reportsProgress packet = false) :
      ProgressStep before packet before []
  /-- The panels are flipped, which is not saved. -/
  | flipped (data : JumpFlipData) (state : Bool) :
      ProgressStep before (.jumpFlip data) { before with jumpFlipState := state } []
  /-- The scenario of an island is stored, but not saved. -/
  | island (data : ScenarioUpdateData) :
      ProgressStep before (.scenarioUpdate data)
        { before with
          islandToScenarioMap := before.islandToScenarioMap.insert data.islandName data.scenario }
        []
  /-- A known shine is reported. -/
  | repeated {report : ToS_GoalItemInfo}
      (h : ⟨report.islandID, report.shineID⟩ ∈ before.collectedGoalItems) :
      ProgressStep before (.goalItemInfo report) before [before]
  /-- A new shine is counted and listed. -/
  | reported {report : ToS_GoalItemInfo} {after : ServerSaveData}
      (h : ⟨report.islandID, report.shineID⟩ ∉ before.collectedGoalItems)
      (hafter : after = { before with
        numCollectedGoalItems := before.numCollectedGoalItems + 1
        collectedGoalItems := before.collectedGoalItems ++ [⟨report.islandID, report.shineID⟩] }) :
      ProgressStep before (.goalItemInfo report) after [after]
  /-- A known toad is unlocked again. -/
  | known {character : ℤ} (h : character ∈ before.unlockedToads) :
      ProgressStep before (.miscMapSync (.toadUnlock character)) before []
  /-- A new toad is listed. -/
  | toad {character : ℤ} {after : ServerSaveData} (h : character ∉ before.unlockedToads)
      (hafter : after = { before with unlockedToads := before.unlockedToads ++ [character] }) :
      ProgressStep before (.miscMapSync (.toadUnlock character)) after [after]
  /-- A shard is listed, known or not. -/
  | shard {zoneID shardID : ℤ} {after : ServerSaveData}
      (hafter : after = { before with
        collectedShards := before.collectedShards ++ [⟨zoneID, shardID⟩] }) :
      ProgressStep before (.miscMapSync (.shardCollect zoneID shardID)) after [after]
  /-- An upload is complete and replaces the shared save. -/
  | committed {packet : SaveDataChunk} {after : ServerSaveData}
      (hsize : after.sharedSaveSize ≤ sharedSaveCapacity)
      (hafter : after = { before with
        sharedSaveSize := after.sharedSaveSize
        sharedSave := after.sharedSave }) :
      ProgressStep before (.saveDataChunk packet) after [after]

/-- The packet that greets the server, which needs no greeting before it. -/
def isHello : ServerBound → Bool
  | .hello _ => true
  | _ => false

/-- The record and the packet that the event loop hands to the packet handler. -/
def handled (s : Server) : ENetEvent → Option (ClientNode × ServerBound)
  | .receive peer packet _ =>
    (s.find? (calcEnetAddressHashCode peer.address)).bind fun node =>
      if node.client.mHasGreeting || isHello packet then some (node, packet) else none
  | _ => none

/-- Effects of an event that reaches no packet handler. -/
inductive Unhandled : List Effect → Prop where
  /-- Nothing happens. -/
  | nothing : Unhandled []
  /-- An unknown peer is disconnected. -/
  | disconnected (peer : ENetPeer) : Unhandled [.disconnectPeer peer]
  /-- A client left. -/
  | left (entries : List PlayerListDataEntry) :
      Unhandled [.broadcast (.playerList entries) true]

/-- Sending saves nothing. -/
theorem savedValues_sendPacketToAllExcept (s : Server) (except : ℕ) (packet : ClientBound)
    (reliable : Bool) : savedValues (s.sendPacketToAllExcept except packet reliable) = [] := by
  refine List.filterMap_eq_nil_iff.mpr fun effect heffect => ?_
  obtain ⟨peer, rfl⟩ := mem_sendPacketToAllExcept heffect
  rfl

/-- Nor does sending to one client. -/
theorem savedValues_sendPacket (s : Server) (client : Client) (packet : ClientBound)
    (reliable : Bool) : savedValues (s.sendPacket client packet reliable) = [] := by
  refine List.filterMap_eq_nil_iff.mpr fun effect heffect => ?_
  rw [mem_sendPacket heffect]

/-- The values saved by some effects are those saved by their parts. -/
theorem savedValues_append (first rest : List Effect) :
    savedValues (first ++ rest) = savedValues first ++ savedValues rest :=
  List.filterMap_append

/-- Nothing is saved by an event that reaches no handler. -/
theorem Unhandled.savedValues {effects : List Effect} (h : Unhandled effects) :
    savedValues effects = [] := by
  cases h <;> rfl

/-- A save chunk changes the shared save alone. -/
theorem handleSaveChunk_progress {s t : Server} {client : ℕ} {packet : SaveDataChunk}
    {effects : List Effect} (h : handleSaveChunk s client packet = some (t, effects)) :
    ProgressStep s.mSaveData (.saveDataChunk packet) t.mSaveData (savedValues effects) := by
  have hopened := openSession_saveData s client
  cases handleSaveChunk_step h with
  | rejected _ =>
    rw [hopened]
    exact .same rfl
  | stored _ hstored _ =>
    rw [hstored.saveData, hopened]
    exact .same rfl
  | committed _ hstored _ hcommitted =>
    have hbefore := hstored.saveData.trans hopened
    refine .committed ?_ ?_
    · have hcopied := memcpy_bounds hcommitted.copied
      have hsize := hcommitted.size
      omega
    · rw [← hbefore]
      exact hcommitted.progress

/-- A report counts and lists a new shine, and saves in either case. -/
theorem handleGoalItemInfo_progress (s : Server) (node : ClientNode) (report : ToS_GoalItemInfo) :
    let result := handleGoalItemInfo s node report
    ProgressStep s.mSaveData (.goalItemInfo report) result.1.mSaveData (savedValues result.2) := by
  have hsaved : savedValues (handleGoalItemInfo s node report).2 =
      [(handleGoalItemInfo s node report).1.mSaveData] := by
    simp only [handleGoalItemInfo, savedValues_append, savedValues_sendPacketToAllExcept,
      savedValues_sendPacket, List.nil_append]
    rfl
  intro result
  rw [hsaved]
  by_cases hknown : (⟨report.islandID, report.shineID⟩ : GoalItemCollectData) ∈
      s.mSaveData.collectedGoalItems
  · have hdata : result.1.mSaveData = s.mSaveData := by
      simp only [result, handleGoalItemInfo_server, if_pos hknown, Int.add_zero, List.append_nil]
    rw [hdata]
    exact .repeated hknown
  · refine .reported hknown ?_
    simp only [result, handleGoalItemInfo_server, if_neg hknown]

/-- A toad is listed once, a shard always. -/
theorem handleMiscMapSync_progress (s : Server) (node : ClientNode) (data : MiscMapSyncData) :
    let result := handleMiscMapSync s node data
    ProgressStep s.mSaveData (.miscMapSync data) result.1.mSaveData (savedValues result.2) := by
  have hrelay : ∀ client, savedValues (redistributePacket s node client).2 = [] :=
    fun client => savedValues_sendPacketToAllExcept s node.ptr client true
  have hsave : ∀ client after, savedValues ((redistributePacket s node client).2 ++
      [.save after]) = [after] := by
    intro client after
    rw [savedValues_append, hrelay]
    rfl
  intro result
  cases data with
  | toadUnlock character =>
    by_cases hknown : character ∈ s.mSaveData.unlockedToads
    · simp only [result, handleMiscMapSync, if_pos hknown, hrelay]
      exact .known hknown
    · simp only [result, handleMiscMapSync, if_neg hknown, hsave]
      exact .toad hknown rfl
  | shardCollect zoneID shardID =>
    simp only [result, handleMiscMapSync, hsave]
    exact .shard rfl
  | killActorByObjId objId =>
    simp only [result, handleMiscMapSync, hrelay]
    exact .same rfl
  | darkBowserHealth health =>
    simp only [result, handleMiscMapSync, hrelay]
    exact .same rfl
  | other type =>
    simp only [result, handleMiscMapSync, hrelay]
    exact .same rfl

/-- A flip is stored and never saved. -/
theorem handleJumpFlip_progress (s : Server) (node : ClientNode) (data : JumpFlipData) (now : ℕ) :
    let result := handleJumpFlip s node data now
    ProgressStep s.mSaveData (.jumpFlip data) result.1.mSaveData (savedValues result.2) := by
  intro result
  by_cases hpasses : jumpFlipPasses s now = true
  · simp only [result, handleJumpFlip, if_pos hpasses, savedValues_append,
      savedValues_sendPacketToAllExcept, List.nil_append]
    split
    · rw [savedValues_sendPacket]
      exact .flipped data _
    · exact .flipped data _
  · simp only [result, handleJumpFlip, if_neg hpasses]
    exact .same rfl

/-- What a handled packet does to the stored progress. -/
theorem handlePacket_progress {s t : Server} {node : ClientNode} {packet : ServerBound} {now : ℕ}
    {effects : List Effect} (h : handlePacket s node packet now = some (t, effects)) :
    ProgressStep s.mSaveData packet t.mSaveData (savedValues effects) := by
  have hrelay : ∀ client reliable, savedValues (s.sendPacketToAllExcept node.ptr client reliable) =
      [] := savedValues_sendPacketToAllExcept s node.ptr
  cases packet with
  | hello packet =>
    cases h
    exact .same rfl
  | log _ _ =>
    cases h
    exact .same rfl
  | singleModeSceneEnter packet =>
    cases h
    exact .same rfl
  | puppetPose data =>
    cases h
    simp only [redistributePacket, hrelay]
    exact .same rfl
  | action data =>
    cases h
    rw [hrelay]
    exact .same rfl
  | playerFigureChange data =>
    cases h
    rw [hrelay]
    exact .same rfl
  | phaseUnlock data =>
    cases h
    rw [hrelay]
    exact .same rfl
  | disasterModeControllerInternalUpdate data =>
    cases h
    rw [hrelay]
    exact .same rfl
  | goalItemInfo report =>
    cases h
    exact handleGoalItemInfo_progress s node report
  | scenarioUpdate data =>
    cases h
    simp only [redistributePacket, hrelay]
    exact .island data
  | miscMapSync data =>
    have hresult : handleMiscMapSync s node data = (t, effects) := Option.some.inj h
    have hstep := handleMiscMapSync_progress s node data
    rwa [hresult] at hstep
  | jumpFlip data =>
    have hresult : handleJumpFlip s node data now = (t, effects) := Option.some.inj h
    have hstep := handleJumpFlip_progress s node data now
    rwa [hresult] at hstep
  | saveDataChunk packet => exact handleSaveChunk_progress h

/-- A received packet that reaches a handler is handled with the record of its
peer. -/
theorem onReceive_of_handled {s : Server} {peer : ENetPeer} {packet taken : ServerBound} {now : ℕ}
    {node : ClientNode} (h : handled s (.receive peer packet now) = some (node, taken)) :
    taken = packet ∧ onReceive s peer packet now = handlePacket s node packet now := by
  simp only [handled, Option.bind_eq_some_iff] at h
  obtain ⟨found, hfind, hfound⟩ := h
  split at hfound
  · rename_i hgreet
    cases hfound
    refine ⟨rfl, onReceive_of_dispatched ⟨hfind, ?_⟩ now⟩
    rcases Bool.or_eq_true_iff.mp hgreet with hgreeted | hhello
    · exact Or.inl hgreeted
    · cases packet with
      | hello hello => exact Or.inr ⟨hello, rfl⟩
      | _ => cases hhello
  · cases hfound

/-- One that reaches no handler leaves the server as it is. -/
theorem onReceive_of_unhandled {s : Server} {peer : ENetPeer} {packet : ServerBound} {now : ℕ}
    (h : handled s (.receive peer packet now) = none) :
    ∃ effects, onReceive s peer packet now = some (s, effects) ∧ Unhandled effects := by
  have hdropped : ∀ node, ¬Dispatched s peer packet node := by
    intro node hdispatched
    obtain ⟨hfind, hgreet⟩ := hdispatched
    have htaken : (node.client.mHasGreeting || isHello packet) = true := by
      rcases hgreet with hgreeted | ⟨hello, rfl⟩
      · rw [hgreeted, Bool.true_or]
      · exact Bool.or_true _
    simp only [handled, hfind, Option.bind_some, if_pos htaken] at h
    cases h
  obtain ⟨effects, hreceive, rfl | rfl⟩ := onReceive_of_not_dispatched hdropped now
  · exact ⟨[], hreceive, .nothing⟩
  · exact ⟨_, hreceive, .disconnected peer⟩

/-- An event whose packet is handled is that handler's call. -/
theorem exeService_of_handled {s : Server} {event : ENetEvent} {node : ClientNode}
    {packet : ServerBound} (h : handled s event = some (node, packet)) :
    ∃ now, exeService s event = handlePacket s node packet now := by
  cases event with
  | connect peer ptr => cases h
  | disconnect peer => cases h
  | receive peer received now =>
    obtain ⟨rfl, hreceive⟩ := onReceive_of_handled h
    exact ⟨now, hreceive⟩

/-- A connection keeps the stored progress. -/
theorem onConnect_progress (s : Server) (peer : ENetPeer) (ptr : ℕ) :
    (onConnect s peer ptr).mSaveData = s.mSaveData := by
  unfold onConnect
  dsimp only
  split <;> rfl

/-- So does a disconnection, which at most announces the players left. -/
theorem onDisconnect_progress (s : Server) (peer : ENetPeer) :
    (onDisconnect s peer).1.mSaveData = s.mSaveData ∧ Unhandled (onDisconnect s peer).2 := by
  unfold onDisconnect
  dsimp only
  split
  · exact ⟨rfl, .left _⟩
  · exact ⟨rfl, .nothing⟩

/-- Any other event keeps the stored progress. -/
theorem exeService_of_unhandled {s : Server} {event : ENetEvent} (h : handled s event = none) :
    ∃ t effects, exeService s event = some (t, effects) ∧ t.mSaveData = s.mSaveData ∧
      Unhandled effects := by
  cases event with
  | connect peer ptr =>
    exact ⟨onConnect s peer ptr, [], rfl, onConnect_progress s peer ptr, .nothing⟩
  | receive peer packet now =>
    obtain ⟨effects, hreceive, heffects⟩ := onReceive_of_unhandled h
    exact ⟨s, effects, hreceive, rfl, heffects⟩
  | disconnect peer => exact ⟨_, _, rfl, onDisconnect_progress s peer⟩

/-- An event reaches no handler and keeps the stored progress, or its packet is
handled. -/
theorem exeService_cases {s t : Server} {event : ENetEvent} {effects : List Effect}
    (h : exeService s event = some (t, effects)) :
    (handled s event = none ∧ t.mSaveData = s.mSaveData ∧ Unhandled effects) ∨
      ∃ node packet now, handled s event = some (node, packet) ∧
        handlePacket s node packet now = some (t, effects) := by
  cases hhandled : handled s event with
  | none =>
    obtain ⟨u, others, hservice, hdata, hothers⟩ := exeService_of_unhandled hhandled
    rw [hservice] at h
    cases h
    exact Or.inl ⟨rfl, hdata, hothers⟩
  | some taken =>
    obtain ⟨now, hservice⟩ := exeService_of_handled hhandled
    rw [hservice] at h
    exact Or.inr ⟨taken.1, taken.2, now, rfl, h⟩

/-- What an event does to the stored progress. -/
theorem exeService_progress {s t : Server} {event : ENetEvent} {effects : List Effect}
    (h : exeService s event = some (t, effects)) :
    (handled s event = none ∧ t.mSaveData = s.mSaveData ∧ savedValues effects = []) ∨
      ∃ node packet, handled s event = some (node, packet) ∧
        ProgressStep s.mSaveData packet t.mSaveData (savedValues effects) := by
  rcases exeService_cases h with ⟨hnone, hsame, heffects⟩ | ⟨node, packet, now, hsome, hhandle⟩
  · exact Or.inl ⟨hnone, hsame, heffects.savedValues⟩
  · exact Or.inr ⟨node, packet, hsome, handlePacket_progress hhandle⟩

end BfMultiplayer.ProgressRules

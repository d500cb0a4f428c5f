import BfMultiplayer.ClientLinks
import BfMultiplayer.ClientProgress

/-!
# A late joiner against a client that was there

A client in the scene handles the packets that the server sends live; a client
that enters later handles the packets of the replay. Both end with a progress
that is a function of what the server stores, and the two functions are equal
but for two fields: the replay sends the shines without the flag that completes
them, and it does not write the flag of a scenario. So the two clients agree
exactly when no shine was reported and the unwritten flags happen to be right.
-/

namespace BfMultiplayer.LateJoin

open ByteBuffer Packets ServerState ServerHandlers EventLoopRules ClientLinks ClientProgress ListFacts

/-- The packets that carry progress to the server; a client writes the flag of
a scenario. -/
inductive ProgressPacket where
  /-- `ToS_GoalItemInfo`. -/
  | goalItemInfo (report : ToS_GoalItemInfo)
  /-- `ToS_ScenarioUpdate`. -/
  | scenarioUpdate (islandName : CString) (scenario : ℤ) (unk : Bool)
  /-- `ToS_MiscMapSync` with a shard. -/
  | shardCollect (zoneID shardID : ℤ)
  /-- `ToS_MiscMapSync` with a toad. -/
  | toadUnlock (character : ℤ)

/-- The handlers of these packets. -/
def handleProgress (s : Server) (client : ClientNode) : ProgressPacket → Server × List Effect
  | .goalItemInfo report => handleGoalItemInfo s client report
  | .scenarioUpdate islandName scenario unk =>
    handleScenarioUpdate s client ⟨islandName, scenario, some unk⟩
  | .shardCollect zoneID shardID => handleMiscMapSync s client (.shardCollect zoneID shardID)
  | .toadUnlock character => handleMiscMapSync s client (.toadUnlock character)

/-- What a packet does to the stored progress. -/
def stored (data : ServerSaveData) : ProgressPacket → ServerSaveData
  | .goalItemInfo report =>
    { data with
      numCollectedGoalItems := data.numCollectedGoalItems +
        if ⟨report.islandID, report.shineID⟩ ∈ data.collectedGoalItems then 0 else 1
      collectedGoalItems := data.collectedGoalItems ++
        if ⟨report.islandID, report.shineID⟩ ∈ data.collectedGoalItems then []
        else [⟨report.islandID, report.shineID⟩] }
  | .scenarioUpdate islandName scenario _ =>
    { data with islandToScenarioMap := data.islandToScenarioMap.insert islandName scenario }
  | .shardCollect zoneID shardID =>
    { data with collectedShards := data.collectedShards ++ [⟨zoneID, shardID⟩] }
  | .toadUnlock character =>
    { data with unlockedToads := data.unlockedToads ++
        if character ∈ data.unlockedToads then [] else [character] }

/-- The server and the game of a client that receives its live packets. -/
structure LiveSystem (γ : Type) where
  /-- The server. -/
  server : Server
  /-- The game of the client. -/
  live : γ

section System

variable {γ : Type} (game : SingleModeGame γ) (memory : ScenarioUpdateData → Bool)

/-- What the game of a client has done when a hook sends a packet. -/
def ownAction (g : γ) : ProgressPacket → γ
  | .goalItemInfo report => game.collectGoalItem g report.islandID report.shineID
  | .scenarioUpdate islandName scenario unk =>
    match game.islandNames.idxOf? islandName with
    | some island => game.setScenarioID g island scenario unk
    | none => g
  | .shardCollect zoneID shardID => game.collectShard g (zoneID - 1) (shardID - 1)
  | .toadUnlock character => game.setUnlockedChar g character

/-- The server handles a packet, and the client everything it is sent for it. A
packet of its own follows what its game has done. -/
def liveStep (node : ClientNode) (sys : LiveSystem γ) (item : ClientNode × ProgressPacket) :
    LiveSystem γ :=
  let result := handleProgress sys.server item.1 item.2
  let g := if item.1.ptr = node.ptr then ownAction game sys.live item.2 else sys.live
  ⟨result.1, (sentTo result.1 node.client.mPeer result.2).foldl
    (handleProgressPacket game memory) g⟩

/-- The game of a client that enters the scene and handles the replay. -/
def joined (data : ServerSaveData) (g : γ) : γ :=
  (sceneEnterReplay data).foldl (handleProgressPacket game memory) g

end System

/-- Whether a packet reports a shine. -/
def ProgressPacket.isReport : ProgressPacket → Bool
  | .goalItemInfo _ => true
  | _ => false

/-- The packet that relays one; a report is answered instead. -/
def ProgressPacket.relay (sender : Uid) : ProgressPacket → Option ClientBound
  | .goalItemInfo _ => none
  | .scenarioUpdate islandName scenario unk =>
    some (.scenarioUpdate sender ⟨islandName, scenario, some unk⟩)
  | .shardCollect zoneID shardID => some (.miscMapSync sender (.shardCollect zoneID shardID))
  | .toadUnlock character => some (.miscMapSync sender (.toadUnlock character))

/-- The flags of the last scenario updates, by island. -/
def recordFlag (flags : CString → Option Bool) (item : ClientNode × ProgressPacket) :
    CString → Option Bool :=
  match item.2 with
  | .scenarioUpdate islandName _ unk => Function.update flags islandName (some unk)
  | _ => flags

/-- The flags that a history leaves. -/
def lastFlags (history : List (ClientNode × ProgressPacket)) : CString → Option Bool :=
  history.foldl recordFlag fun _ => none

/-- The memory under the flag of each replayed island holds the last flag that
was sent for it. -/
def MemoryRight (names : List CString) (mem : CString → Bool)
    (history : List (ClientNode × ProgressPacket)) : Prop :=
  ∀ name ∈ names, ∀ flag ∈ lastFlags history name, mem name = flag

/-- The islands of a scene under stored scenarios and some flags. Only the first
island of a name is ever set. -/
def islandView (names : List CString) (map : ScenarioMap) (flags : CString → Option Bool) (i : ℕ) :
    Option (ℤ × Bool) :=
  (names[i]?).bind fun name =>
    if names.idxOf? name = some i then
      (map[name]?).bind fun scenario => (flags name).map fun unk => (scenario, unk)
    else none

/-- The progress of a client that was there. -/
def liveView (names : List CString) (data : ServerSaveData) (flags : CString → Option Bool) :
    Progress where
  mNumGoalItems := data.numCollectedGoalItems
  completed scenario := data.collectedGoalItems.any fun item =>
    zeroBased item.islandID item.scenarioID == scenario
  shards shard := data.collectedShards.any fun item =>
    zeroBased item.islandID item.scenarioID == shard
  unlockedChars character := data.unlockedToads.contains character
  islands := islandView names data.islandToScenarioMap flags

/-- The progress of a client that has handled the replay. -/
def replayView (names : List CString) (data : ServerSaveData) (flags : CString → Option Bool) :
    Progress :=
  { liveView names data flags with
    mNumGoalItems := if data.collectedGoalItems.isEmpty then 0 else data.numCollectedGoalItems
    completed := fun _ => false }

/-- Setting the first island of a name is inserting its scenario and flag. -/
theorem islandView_insert {names : List CString} {map : ScenarioMap}
    {flags flags' : CString → Option Bool} {name : CString} {unk : Bool} (scenario : ℤ)
    (hname : flags' name = some unk) (hother : ∀ other, other ≠ name → flags' other = flags other) :
    islandView names (map.insert name scenario) flags' =
      match names.idxOf? name with
      | some i => Function.update (islandView names map flags) i (some (scenario, unk))
      | none => islandView names map flags := by
  have hkeep : ∀ j, names.idxOf? name ≠ some j →
      islandView names (map.insert name scenario) flags' j = islandView names map flags j := by
    intro j hj
    unfold islandView
    cases hat : names[j]? with
    | none => rfl
    | some other =>
      simp only [Option.bind_some]
      by_cases hne : other = name
      · rw [hne, if_neg hj, if_neg hj]
      · rw [Std.ExtTreeMap.getElem?_insert, hother other hne]
        have hcompare : compare name other ≠ .eq := fun h => hne (Std.LawfulEqCmp.eq_of_compare h).symm
        rw [if_neg hcompare]
  have hset : ∀ i, names.idxOf? name = some i →
      islandView names (map.insert name scenario) flags' i = some (scenario, unk) := by
    intro i hi
    have hat : names[i]? = some name := by
      obtain ⟨hlt, hget, -⟩ := List.idxOf?_eq_some_iff.mp hi
      rw [List.getElem?_eq_getElem hlt, hget]
    simp only [islandView, hat, Option.bind_some, if_pos hi, Std.ExtTreeMap.getElem?_insert_self,
      hname, Option.map_some]
  funext j
  cases hi : names.idxOf? name with
  | none => exact hkeep j (by rw [hi]; exact fun h => by cases h)
  | some i =>
    by_cases hj : j = i
    · rw [hj]
      dsimp only
      rw [Function.update_self, hset i hi]
    · dsimp only
      rw [Function.update_of_ne hj]
      refine hkeep j ?_
      rw [hi]
      exact fun h => hj (Option.some.inj h).symm

/-- A scenario packet inserts the scenario and its flag into the view. -/
theorem scenarioUpdate_view {names : List CString} {memory : ScenarioUpdateData → Bool}
    {p : Progress} {map : ScenarioMap} {flags flags' : CString → Option Bool}
    {data : ScenarioUpdateData} (hp : p.islands = islandView names map flags)
    (hname : flags' data.islandName = some (data.unk.getD (memory data)))
    (hother : ∀ other, other ≠ data.islandName → flags' other = flags other) (sender : Uid) :
    handleProgressPacket (progressGame names) memory p (.scenarioUpdate sender data) =
      { p with islands := islandView names (map.insert data.islandName data.scenario) flags' } := by
  rw [islandView_insert data.scenario hname hother, ← hp]
  simp only [handleProgressPacket, handleToC_ScenarioUpdate, progressGame]
  cases names.idxOf? data.islandName <;> rfl

/-- A shine is complete in the view exactly when the server stores it. -/
theorem liveView_completed (names : List CString) (data : ServerSaveData)
    (flags : CString → Option Bool) (item : GoalItemCollectData) :
    (liveView names data flags).completed (zeroBased item.islandID item.scenarioID) = true ↔
      item ∈ data.collectedGoalItems := by
  simp only [liveView, List.any_eq_true, beq_iff_eq]
  constructor
  · intro h
    obtain ⟨other, hmem, hsame⟩ := h
    obtain ⟨hisland, hshine⟩ := zeroBased_inj hsame
    have he : other = item := by
      cases other
      cases item
      cases hisland
      cases hshine
      rfl
    rw [← he]
    exact hmem
  · intro hmem
    exact ⟨item, hmem, rfl⟩

/-- A report in the view, whether its shine is new or not. -/
theorem liveView_report (names : List CString) (data : ServerSaveData)
    (flags : CString → Option Bool) (count : ℤ) (item : GoalItemCollectData) :
    liveView names { data with
        numCollectedGoalItems := count
        collectedGoalItems := data.collectedGoalItems ++
          if item ∈ data.collectedGoalItems then [] else [item] } flags =
      ((liveView names data flags).completeScenario
        (zeroBased item.islandID item.scenarioID)).setNumGoalItems count := by
  ext1
  · rfl
  · have hcompleted := liveView_completed names data flags item
    simp only [Progress.completeScenario, Progress.setNumGoalItems]
    by_cases hknown : item ∈ data.collectedGoalItems
    · rw [update_true_of_marked (hcompleted.mpr hknown), if_pos hknown, List.append_nil]
      rfl
    · funext scenario
      rw [update_true, if_neg hknown]
      simp only [liveView, List.any_append, List.any_cons, List.any_nil, Bool.or_false]
  · rfl
  · rfl
  · rfl

/-- Completing a scenario twice is completing it once. -/
theorem completeScenario_done {p : Progress} {scenario : ℤ × ℤ} (h : p.completed scenario = true) :
    p.completeScenario scenario = p := by
  simp only [Progress.completeScenario, update_true_of_marked h, h, if_true]

/-- The packet that answers a report leaves every client with the scenario
complete and the counter assigned: it completes what was not, and leaves alone
what was. -/
theorem handle_report (names : List CString) (islandID shineID : ℤ) {p : Progress}
    {packet : ToC_GoalItemInfo}
    (hnew : packet.isCollectNewShine = true → packet.islandID = some islandID ∧
      packet.shineID = some shineID ∧ p.completed (zeroBased islandID shineID) = false)
    (hold : packet.isCollectNewShine = false → p.completed (zeroBased islandID shineID) = true) :
    handleToC_GoalItemInfo (progressGame names) p packet =
      (p.completeScenario (zeroBased islandID shineID)).setNumGoalItems
        packet.numCollectedGoalItems := by
  cases hflag : packet.isCollectNewShine with
  | false =>
    rw [handleToC_GoalItemInfo_old hflag, completeScenario_done (hold hflag)]
    rfl
  | true =>
    obtain ⟨hisland, hshine, hincomplete⟩ := hnew hflag
    rw [handleToC_GoalItemInfo_new hflag hisland hshine]
    rw [zeroBased] at hincomplete ⊢
    simp only [progressGame, Progress.completeScenario, Progress.setNumGoalItems, hincomplete,
      Bool.false_eq_true, if_false, Progress.mk.injEq, and_true]
    omega

/-- One more shard in the view. -/
theorem liveView_shard (names : List CString) (data : ServerSaveData)
    (flags : CString → Option Bool) (zoneID shardID : ℤ) :
    liveView names { data with
        collectedShards := data.collectedShards ++ [⟨zoneID, shardID⟩] } flags =
      (liveView names data flags).collectShard (zeroBased zoneID shardID) := by
  ext1
  · rfl
  · rfl
  · funext shard
    simp only [Progress.collectShard, liveView, update_true, List.any_append, List.any_cons,
      List.any_nil, Bool.or_false]
  · rfl
  · rfl

/-- One more toad in the view. -/
theorem liveView_toad (names : List CString) (data : ServerSaveData)
    (flags : CString → Option Bool) (character : ℤ) :
    liveView names { data with
        unlockedToads := data.unlockedToads ++
          if character ∈ data.unlockedToads then [] else [character] } flags =
      (liveView names data flags).setUnlockedChar character := by
  ext1
  · rfl
  · rfl
  · rfl
  · simp only [Progress.setUnlockedChar]
    by_cases hknown : character ∈ data.unlockedToads
    · have hmarked : (liveView names data flags).unlockedChars character = true :=
        List.contains_iff_mem.mpr hknown
      rw [update_true_of_marked hmarked, if_pos hknown, List.append_nil]
    · funext toad
      rw [update_true, if_neg hknown]
      simp only [liveView, List.contains_append, List.contains_cons, List.contains_nil,
        Bool.or_false, Bool.beq_comm]
  · rfl

/-- The server and the progress that the game of the client shows. -/
def LiveSystem.shown {γ : Type} (game : SingleModeGame γ) (sys : LiveSystem γ) :
    LiveSystem Progress :=
  ⟨sys.server, game.progress sys.live⟩

/-- Any lawful game shows, of what a client does itself, what the game of
progress alone does. -/
theorem progress_ownAction {γ : Type} {game : SingleModeGame γ} (hgame : game.Lawful) (g : γ)
    (packet : ProgressPacket) :
    game.progress (ownAction game g packet) =
      ownAction (progressGame game.islandNames) (game.progress g) packet := by
  cases packet with
  | goalItemInfo report => exact hgame.collectGoalItem _ _ _
  | scenarioUpdate islandName scenario unk =>
    simp only [ownAction, progressGame]
    cases game.islandNames.idxOf? islandName with
    | none => rfl
    | some island => exact hgame.setScenarioID _ _ _ _
  | shardCollect zoneID shardID => exact hgame.collectShard _ _ _
  | toadUnlock character => exact hgame.setUnlockedChar _ _

/-- Any lawful game shows, of some packets, what the game of progress alone
makes of them. -/
theorem progress_foldl {γ : Type} {game : SingleModeGame γ} (hgame : game.Lawful)
    (memory : ScenarioUpdateData → Bool) (packets : List ClientBound) (g : γ) :
    game.progress (packets.foldl (handleProgressPacket game memory) g) =
      packets.foldl (handleProgressPacket (progressGame game.islandNames) memory)
        (game.progress g) := by
  refine (List.foldl_hom game.progress ?_).symm
  intro g packet
  exact (progress_handle hgame memory g packet).symm

/-- So it does of a whole history. -/
theorem shown_history {γ : Type} {game : SingleModeGame γ} (hgame : game.Lawful)
    (memory : ScenarioUpdateData → Bool) (node : ClientNode)
    (history : List (ClientNode × ProgressPacket)) (sys : LiveSystem γ) :
    (history.foldl (liveStep game memory node) sys).shown game =
      history.foldl (liveStep (progressGame game.islandNames) memory node) (sys.shown game) := by
  refine (List.foldl_hom (LiveSystem.shown game) ?_).symm
  intro sys item
  simp only [liveStep, LiveSystem.shown, progress_foldl hgame]
  by_cases hown : item.1.ptr = node.ptr
  · rw [if_pos hown, if_pos hown, progress_ownAction hgame]
  · rw [if_neg hown, if_neg hown]

/-- A packet that a client of the table can send: the island's name ends inside
its field. -/
def Sendable (s : Server) (item : ClientNode × ProgressPacket) : Prop :=
  item.1 ∈ s.mClients ∧
    match item.2 with
    | .scenarioUpdate islandName _ _ => islandName.length < 128
    | _ => True

/-- What holds after a history. -/
structure LiveInv (s : Server) (names : List CString) (history : List (ClientNode × ProgressPacket))
    (sys : LiveSystem Progress) : Prop where
  /-- The clients of the server. -/
  linked : Linked sys.server
  /-- They stay. -/
  clients : sys.server.mClients = s.mClients
  /-- The client shows what the server stores. -/
  view : sys.live = liveView names sys.server.mSaveData (lastFlags history)
  /-- Shines are stored as soon as one is reported. -/
  reported : sys.server.mSaveData.collectedGoalItems = [] ↔
    ∀ item ∈ history, item.2.isReport = false
  /-- Without shines the counter is zero. -/
  counted : sys.server.mSaveData.collectedGoalItems = [] →
    sys.server.mSaveData.numCollectedGoalItems = 0
  /-- A scenario is stored where a flag was sent. -/
  flagged : ∀ name : CString, (sys.server.mSaveData.islandToScenarioMap[name]?).isSome =
    (lastFlags history name).isSome
  /-- The stored names fit. -/
  short : ∀ name : CString, (sys.server.mSaveData.islandToScenarioMap[name]?).isSome = true →
    name.length < 128

/-- The handlers change the stored progress alone. -/
theorem handleProgress_server (s : Server) (client : ClientNode) (packet : ProgressPacket) :
    (handleProgress s client packet).1 = { s with mSaveData := stored s.mSaveData packet } := by
  cases packet with
  | goalItemInfo report => exact handleGoalItemInfo_server s client report
  | scenarioUpdate islandName scenario unk => rfl
  | shardCollect zoneID shardID => rfl
  | toadUnlock character =>
    by_cases hknown : character ∈ s.mSaveData.unlockedToads
    · simp only [handleProgress, handleMiscMapSync, stored, if_pos hknown, List.append_nil]
      rfl
    · simp only [handleProgress, handleMiscMapSync, stored, if_neg hknown]

/-- A relayed packet reaches everybody but its sender. -/
theorem handleProgress_relays {s : Server} (hs : Linked s) {client node : ClientNode}
    (hnode : node ∈ s.mClients) {packet : ProgressPacket} {relay : ClientBound}
    (hrelay : packet.relay client.client.mUid = some relay) :
    let result := handleProgress s client packet
    sentTo result.1 node.client.mPeer result.2 = if node.ptr = client.ptr then [] else [relay] := by
  have heffects : ∃ saves : List Effect, (∀ t, sentTo t node.client.mPeer saves = []) ∧
      (handleProgress s client packet).2 = (redistributePacket s client relay).2 ++ saves := by
    cases packet with
    | goalItemInfo report => cases hrelay
    | scenarioUpdate islandName scenario unk =>
      cases hrelay
      exact ⟨[], fun _ => rfl, (List.append_nil _).symm⟩
    | shardCollect zoneID shardID =>
      cases hrelay
      exact ⟨[.save _], fun _ => rfl, rfl⟩
    | toadUnlock character =>
      cases hrelay
      by_cases hknown : character ∈ s.mSaveData.unlockedToads
      · refine ⟨[], fun _ => rfl, ?_⟩
        rw [List.append_nil]
        simp only [handleProgress, handleMiscMapSync, if_pos hknown]
      · refine ⟨[.save (stored s.mSaveData (.toadUnlock character))], fun _ => rfl, ?_⟩
        simp only [handleProgress, handleMiscMapSync, stored, if_neg hknown]
  obtain ⟨saves, hsaves, hsplit⟩ := heffects
  have hserver := handleProgress_server s client packet
  intro result
  rw [show result.2 = _ from hsplit, sentTo_append, hsaves, List.append_nil]
  exact hs.redistributePacket_sent (by rw [hserver]) (by rw [hserver]) hnode client relay

/-- The flags after one more packet. -/
theorem lastFlags_append (history : List (ClientNode × ProgressPacket))
    (item : ClientNode × ProgressPacket) :
    lastFlags (history ++ [item]) = recordFlag (lastFlags history) item := by
  rw [lastFlags, List.foldl_append]
  rfl

/-- Reports after one more packet. -/
theorem noReport_append {history : List (ClientNode × ProgressPacket)}
    {item : ClientNode × ProgressPacket} :
    (∀ other ∈ history ++ [item], other.2.isReport = false) ↔
      (∀ other ∈ history, other.2.isReport = false) ∧ item.2.isReport = false := by
  rw [List.forall_mem_append, List.forall_mem_singleton]

/-- A client that does itself what a relayed packet would have it do shows the
same after the packet, whoever sent it. -/
theorem live_relayed {γ : Type} {game : SingleModeGame γ} {memory : ScenarioUpdateData → Bool}
    {node client : ClientNode} {sys : LiveSystem γ} (hlinked : Linked sys.server)
    (hnode : node ∈ sys.server.mClients) {packet : ProgressPacket} {relay : ClientBound}
    (hrelay : packet.relay client.client.mUid = some relay)
    (hown : ownAction game sys.live packet = handleProgressPacket game memory sys.live relay) :
    (liveStep game memory node sys (client, packet)).live =
      handleProgressPacket game memory sys.live relay := by
  simp only [liveStep, handleProgress_relays hlinked hnode hrelay]
  by_cases hptr : node.ptr = client.ptr
  · rw [if_pos hptr, if_pos hptr.symm, List.foldl_nil, hown]
  · rw [if_neg hptr, if_neg (Ne.symm hptr), List.foldl_cons, List.foldl_nil]

/-- After a report, a client that shows what the server stores still does: the
sender has completed the scenario itself, the others are told when it is new. -/
theorem live_report {names : List CString} {memory : ScenarioUpdateData → Bool}
    {node client : ClientNode} {sys : LiveSystem Progress} {flags : CString → Option Bool}
    (hlinked : Linked sys.server) (hnode : node ∈ sys.server.mClients)
    (hview : sys.live = liveView names sys.server.mSaveData flags)
    (hsender : client ∈ sys.server.mClients) (report : ToS_GoalItemInfo) :
    (liveStep (progressGame names) memory node sys (client, .goalItemInfo report)).live =
      liveView names (stored sys.server.mSaveData (.goalItemInfo report)) flags := by
  obtain ⟨answer, hsent, hcount, hnew, hids⟩ :=
    hlinked.handleGoalItemInfo_sent hsender hnode report
  have hcompleted := liveView_completed names sys.server.mSaveData flags
    ⟨report.islandID, report.shineID⟩
  have hcounter : answer.numCollectedGoalItems =
      (stored sys.server.mSaveData (.goalItemInfo report)).numCollectedGoalItems := by
    rw [hcount, handleGoalItemInfo_server]
    rfl
  have hreported := liveView_report names sys.server.mSaveData flags
    (stored sys.server.mSaveData (.goalItemInfo report)).numCollectedGoalItems
    ⟨report.islandID, report.shineID⟩
  simp only [liveStep, handleProgress, hsent, List.foldl_cons, List.foldl_nil,
    handleProgressPacket]
  by_cases hptr : node.ptr = client.ptr
  · -- its own game has completed the scenario already
    have hold : answer.isCollectNewShine = false :=
      Bool.eq_false_iff.mpr fun h => (hnew.mp h).1 hptr
    rw [if_pos hptr.symm, handleToC_GoalItemInfo_old hold, hcounter, hview]
    exact hreported.symm
  · rw [if_neg (Ne.symm hptr), handle_report names report.islandID report.shineID, hcounter,
      hview]
    · exact hreported.symm
    · intro h
      refine ⟨(hids h).1, (hids h).2, ?_⟩
      rw [hview, Bool.eq_false_iff]
      exact fun hdone => (hnew.mp h).2 (hcompleted.mp hdone)
    · intro h
      rw [hview]
      refine hcompleted.mpr ?_
      by_contra hunknown
      rw [hnew.mpr ⟨hptr, hunknown⟩] at h
      cases h

/-- A client that shows what the server stores still does after a packet, its
own or relayed. -/
theorem live_step {names : List CString} {memory : ScenarioUpdateData → Bool} {node : ClientNode}
    {sys : LiveSystem Progress} {flags : CString → Option Bool} (hlinked : Linked sys.server)
    (hnode : node ∈ sys.server.mClients) (hview : sys.live = liveView names sys.server.mSaveData flags)
    {item : ClientNode × ProgressPacket} (hsender : item.1 ∈ sys.server.mClients) :
    (liveStep (progressGame names) memory node sys item).live =
      liveView names (stored sys.server.mSaveData item.2) (recordFlag flags item) := by
  obtain ⟨client, packet⟩ := item
  cases packet with
  | goalItemInfo report => exact live_report hlinked hnode hview hsender report
  | scenarioUpdate islandName scenario unk =>
    rw [live_relayed hlinked hnode rfl rfl, scenarioUpdate_view (by rw [hview]; rfl)
      (Function.update_self ..) (fun other hne => Function.update_of_ne hne _ _), hview]
    rfl
  | shardCollect zoneID shardID =>
    have hhandle := progress_shardCollect (progressGame_lawful names) sys.live zoneID shardID
    have hown : ownAction (progressGame names) sys.live (.shardCollect zoneID shardID) =
        handleProgressPacket (progressGame names) memory sys.live
          (.miscMapSync client.client.mUid (.shardCollect zoneID shardID)) := hhandle.symm
    rw [live_relayed hlinked hnode rfl hown]
    refine hhandle.trans ?_
    rw [hview]
    exact (liveView_shard names sys.server.mSaveData flags zoneID shardID).symm
  | toadUnlock character =>
    rw [live_relayed hlinked hnode rfl rfl, hview]
    exact (liveView_toad names sys.server.mSaveData flags character).symm

/-- Nothing has been handled: the server stores nothing and shows it. -/
theorem liveInv_start {s : Server} {names : List CString} {save : Buffer sharedSaveCapacity}
    (hs : Linked s) (hfresh : s.mSaveData = .fresh save) :
    LiveInv s names [] ⟨s, .empty⟩ := by
  have hnone : ∀ name : CString, s.mSaveData.islandToScenarioMap[name]? = none := by
    intro name
    rw [hfresh]
    exact Std.ExtTreeMap.getElem?_empty
  refine ⟨hs, rfl, ?_, ?_, ?_, ?_, ?_⟩
  · have hislands : islandView names s.mSaveData.islandToScenarioMap (lastFlags []) =
        fun _ => none := by
      funext i
      simp only [islandView, hnone, Option.bind_none, ite_self, Option.bind_fun_none]
    ext1
    · rw [hfresh]
      rfl
    · rw [hfresh]
      rfl
    · rw [hfresh]
      rfl
    · rw [hfresh]
      rfl
    · exact hislands.symm
  · rw [hfresh]
    exact iff_of_true rfl fun item hmem => absurd hmem List.not_mem_nil
  · rw [hfresh]
    exact fun _ => rfl
  · intro name
    rw [hnone]
    rfl
  · intro name h
    rw [hnone] at h
    cases h

/-- Whether there are stored shines after a packet. -/
theorem stored_eq_nil_iff (data : ServerSaveData) (packet : ProgressPacket) :
    (stored data packet).collectedGoalItems = [] ↔
      data.collectedGoalItems = [] ∧ packet.isReport = false := by
  cases packet with
  | goalItemInfo report =>
    refine iff_of_false ?_ fun h => Bool.noConfusion h.2
    simp only [stored]
    split
    · rename_i hknown
      rw [List.append_nil]
      exact List.ne_nil_of_mem hknown
    · exact List.append_ne_nil_of_right_ne_nil _ (List.cons_ne_nil _ _)
  | scenarioUpdate islandName scenario unk => exact (and_iff_left rfl).symm
  | shardCollect zoneID shardID => exact (and_iff_left rfl).symm
  | toadUnlock character => exact (and_iff_left rfl).symm

/-- Only a report counts. -/
theorem stored_count (data : ServerSaveData) {packet : ProgressPacket}
    (h : packet.isReport = false) :
    (stored data packet).numCollectedGoalItems = data.numCollectedGoalItems := by
  cases packet with
  | goalItemInfo report => cases h
  | scenarioUpdate islandName scenario unk => rfl
  | shardCollect zoneID shardID => rfl
  | toadUnlock character => rfl

/-- A packet stores a scenario where it leaves a flag, under a name that fits. -/
theorem stored_scenario {s : Server} {item : ClientNode × ProgressPacket} (hitem : Sendable s item)
    {data : ServerSaveData} {flags : CString → Option Bool} {name : CString}
    (hflagged : (data.islandToScenarioMap[name]?).isSome = (flags name).isSome)
    (hshort : (data.islandToScenarioMap[name]?).isSome = true → name.length < 128) :
    (stored data item.2).islandToScenarioMap[name]?.isSome =
      (recordFlag flags item name).isSome ∧
    ((stored data item.2).islandToScenarioMap[name]?.isSome = true → name.length < 128) := by
  obtain ⟨client, packet⟩ := item
  cases packet with
  | scenarioUpdate islandName scenario unk =>
    simp only [stored, recordFlag]
    by_cases hname : islandName = name
    · rw [← hname, Std.ExtTreeMap.getElem?_insert_self, Function.update_self]
      exact ⟨rfl, fun _ => hitem.2⟩
    · have hcompare : compare islandName name ≠ .eq := fun h =>
        hname (Std.LawfulEqCmp.eq_of_compare h)
      rw [Std.ExtTreeMap.getElem?_insert, if_neg hcompare, Function.update_of_ne (Ne.symm hname)]
      exact ⟨hflagged, hshort⟩
  | goalItemInfo report => exact ⟨hflagged, hshort⟩
  | shardCollect zoneID shardID => exact ⟨hflagged, hshort⟩
  | toadUnlock character => exact ⟨hflagged, hshort⟩

/-- One more packet. -/
theorem liveInv_step {s : Server} {names : List CString} {memory : ScenarioUpdateData → Bool}
    {node : ClientNode} {history : List (ClientNode × ProgressPacket)} {sys : LiveSystem Progress}
    (hinv : LiveInv s names history sys) (hnode : node ∈ s.mClients)
    {item : ClientNode × ProgressPacket} (hitem : Sendable s item) :
    LiveInv s names (history ++ [item]) (liveStep (progressGame names) memory node sys item) := by
  obtain ⟨hlinked, hclients, hview, hreported, hcounted, hflagged, hshort⟩ := hinv
  have hserver : (liveStep (progressGame names) memory node sys item).server =
      { sys.server with mSaveData := stored sys.server.mSaveData item.2 } :=
    handleProgress_server sys.server item.1 item.2
  have hlive : (liveStep (progressGame names) memory node sys item).live = _ :=
    live_step hlinked (hclients ▸ hnode) hview (hclients ▸ hitem.1)
  have hempty := stored_eq_nil_iff sys.server.mSaveData item.2
  refine ⟨?_, ?_, ?_, ?_, ?_, ?_, ?_⟩
  · rw [hserver]
    exact hlinked.congr rfl rfl
  · rw [hserver]
    exact hclients
  · rw [hlive, hserver, lastFlags_append]
  · rw [hserver, noReport_append, ← hreported]
    exact hempty
  · rw [hserver]
    intro hnil
    obtain ⟨hold, hreport⟩ := hempty.mp hnil
    exact (stored_count _ hreport).trans (hcounted hold)
  · intro name
    rw [hserver, lastFlags_append]
    exact (stored_scenario hitem (hflagged name) (hshort name)).1
  · intro name
    rw [hserver]
    exact (stored_scenario hitem (hflagged name) (hshort name)).2

/-- A whole history. -/
theorem liveInv_history {s : Server} {names : List CString} {memory : ScenarioUpdateData → Bool}
    {node : ClientNode} {save : Buffer sharedSaveCapacity} (hs : Linked s)
    (hfresh : s.mSaveData = .fresh save) (hnode : node ∈ s.mClients)
    {history : List (ClientNode × ProgressPacket)} (hhistory : ∀ item ∈ history, Sendable s item) :
    LiveInv s names history
      (history.foldl (liveStep (progressGame names) memory node) ⟨s, .empty⟩) := by
  induction history using List.reverseRecOn with
  | nil => exact liveInv_start hs hfresh
  | append_singleton history item ih =>
    rw [List.forall_mem_append, List.forall_mem_singleton] at hhistory
    rw [List.foldl_append, List.foldl_cons, List.foldl_nil]
    exact liveInv_step (ih hhistory.1) hnode hhistory.2

/-- The islands after the replay of some scenarios. -/
theorem replay_islands (names : List CString) (mem : CString → Bool) {pairs : List (CString × ℤ)}
    (hshort : ∀ pair ∈ pairs, pair.1.length < 128) {p : Progress} {map : ScenarioMap}
    (hp : p.islands = islandView names map fun name => some (mem name)) :
    (pairs.map replayScenario).foldl
        (handleProgressPacket (progressGame names) fun data => mem data.islandName) p =
      { p with
        islands := islandView names (pairs.foldl (fun acc pair => acc.insert pair.1 pair.2) map)
          fun name => some (mem name) } := by
  induction pairs generalizing p map with
  | nil =>
    rw [List.foldl_nil, ← hp]
    rfl
  | cons pair pairs ih =>
    rw [List.forall_mem_cons] at hshort
    have htake : pair.1.take 128 = pair.1 := List.take_of_length_le (by omega)
    rw [List.map_cons, List.foldl_cons, List.foldl_cons, replayScenario, htake,
      scenarioUpdate_view hp rfl fun _ _ => rfl]
    exact ih hshort.2 rfl

/-- The counter after the replay of some shines, all with the same count. -/
theorem replay_goalItems (names : List CString) (memory : ScenarioUpdateData → Bool) (count : ℤ)
    (items : List GoalItemCollectData) (p : Progress) :
    (items.map (replayGoalItem count)).foldl (handleProgressPacket (progressGame names) memory) p =
      if items.isEmpty then p else p.setNumGoalItems count := by
  induction items generalizing p with
  | nil => rfl
  | cons item items ih =>
    rw [List.map_cons, List.foldl_cons, ih]
    cases items <;> rfl

/-- The characters after the replay of some toads. -/
theorem replay_toads (names : List CString) (memory : ScenarioUpdateData → Bool) (toads : List ℤ)
    (p : Progress) :
    (toads.map replayToad).foldl (handleProgressPacket (progressGame names) memory) p =
      { p with unlockedChars := fun character =>
          p.unlockedChars character || toads.contains character } := by
  induction toads generalizing p with
  | nil => simp only [List.map_nil, List.foldl_nil, List.contains_nil, Bool.or_false]
  | cons toad toads ih =>
    rw [List.map_cons, List.foldl_cons, ih]
    ext1
    · rfl
    · rfl
    · rfl
    · funext character
      simp only [replayToad, handleProgressPacket, handleToC_MiscMapSync, progressGame,
        Progress.setUnlockedChar, update_true, List.contains_cons, Bool.or_assoc, Bool.beq_comm]
    · rfl

/-- The shards after the replay of some. -/
theorem replay_shards (names : List CString) (memory : ScenarioUpdateData → Bool)
    (items : List GoalItemCollectData) (p : Progress) :
    (items.map replayShard).foldl (handleProgressPacket (progressGame names) memory) p =
      { p with shards := fun shard => p.shards shard ||
          items.any fun item => zeroBased item.islandID item.scenarioID == shard } := by
  induction items generalizing p with
  | nil => simp only [List.map_nil, List.foldl_nil, List.any_nil, Bool.or_false]
  | cons item items ih =>
    have hhandle : handleProgressPacket (progressGame names) memory p (replayShard item) =
        p.collectShard (zeroBased item.islandID item.scenarioID) :=
      progress_shardCollect (progressGame_lawful names) p item.islandID item.scenarioID
    rw [List.map_cons, List.foldl_cons, ih, hhandle]
    ext1
    · rfl
    · rfl
    · funext shard
      simp only [Progress.collectShard, update_true, List.any_cons, Bool.or_assoc]
    · rfl
    · rfl

/-- What a client shows that has handled the replay. -/
theorem joined_view {names : List CString} (mem : CString → Bool) {data : ServerSaveData}
    (hshort : ∀ name : CString, (data.islandToScenarioMap[name]?).isSome = true →
      name.length < 128) :
    joined (progressGame names) (fun d => mem d.islandName) data .empty =
      replayView names data fun name => some (mem name) := by
  have hpairs : ∀ pair ∈ data.islandToScenarioMap.toList, pair.1.length < 128 := by
    intro pair hpair
    refine hshort pair.1 ?_
    rw [Std.ExtTreeMap.mem_toList_iff_getElem?_eq_some.mp hpair]
    rfl
  have hempty : Progress.empty.islands = islandView names ∅ fun name => some (mem name) := by
    funext i
    have hnone : ∀ name : CString, (∅ : ScenarioMap)[name]? = none := fun _ =>
      Std.ExtTreeMap.getElem?_empty
    simp only [islandView, hnone, Option.bind_none, ite_self, Option.bind_fun_none]
    rfl
  rw [joined, sceneEnterReplay, List.foldl_append, List.foldl_append, List.foldl_append,
    replay_islands names mem hpairs hempty, foldl_insert_toList, replay_goalItems, replay_toads,
    replay_shards]
  cases hitems : data.collectedGoalItems <;>
    simp only [replayView, liveView, hitems, Progress.empty, Progress.setNumGoalItems,
      List.isEmpty_nil, List.isEmpty_cons, Bool.false_or, if_true, Bool.false_eq_true, if_false]

/-- The islands look the same exactly when the flags sent are the ones replayed. -/
theorem islandView_agree_iff {names : List CString} {mem : CString → Bool} {scenarios : ScenarioMap}
    {flags : CString → Option Bool}
    (hflagged : ∀ name : CString, (scenarios[name]?).isSome = (flags name).isSome) :
    islandView names scenarios flags = (islandView names scenarios fun name => some (mem name)) ↔
      ∀ name ∈ names, ∀ flag ∈ flags name, mem name = flag := by
  constructor
  · intro h name hname flag hflag
    obtain ⟨i, hi⟩ := Option.isSome_iff_exists.mp (List.isSome_idxOf?.mpr hname)
    have hat : names[i]? = some name := by
      obtain ⟨hlt, hget, -⟩ := List.idxOf?_eq_some_iff.mp hi
      rw [List.getElem?_eq_getElem hlt, hget]
    have hsent : flags name = some flag := hflag
    have hstored := hflagged name
    rw [hsent] at hstored
    obtain ⟨scenario, hscenario⟩ := Option.isSome_iff_exists.mp hstored
    have hisland := congrFun h i
    simp only [islandView, hat, Option.bind_some, if_pos hi, hscenario, hsent, Option.map_some,
      Option.some.injEq, Prod.mk.injEq, true_and] at hisland
    exact hisland.symm
  · intro hright
    funext i
    simp only [islandView]
    cases hat : names[i]? with
    | none => rfl
    | some name =>
      have hstored := hflagged name
      cases hsent : flags name with
      | none =>
        rw [hsent, Option.isSome_none, Option.isSome_eq_false_iff, Option.isNone_iff_eq_none]
          at hstored
        simp only [Option.bind_some, hsent, hstored, Option.bind_none]
      | some flag =>
        have hmem := hright name (List.mem_of_getElem? hat) flag hsent
        simp only [Option.bind_some, hsent, hmem]

/-- The two views are one exactly when there is no shine and the flags are the
same. -/
theorem views_agree_iff {names : List CString} {mem : CString → Bool} {data : ServerSaveData}
    {flags : CString → Option Bool}
    (hcounted : data.collectedGoalItems = [] → data.numCollectedGoalItems = 0)
    (hflagged : ∀ name : CString, (data.islandToScenarioMap[name]?).isSome = (flags name).isSome) :
    liveView names data flags = (replayView names data fun name => some (mem name)) ↔
      data.collectedGoalItems = [] ∧ ∀ name ∈ names, ∀ flag ∈ flags name, mem name = flag := by
  rw [← islandView_agree_iff hflagged]
  constructor
  · intro h
    refine ⟨?_, congrArg Progress.islands h⟩
    -- a stored shine is complete on one side only
    cases hitems : data.collectedGoalItems with
    | nil => rfl
    | cons item items =>
      have hdone := (liveView_completed names data flags item).mpr
        (by rw [hitems]; exact List.mem_cons_self)
      rw [h] at hdone
      cases hdone
  · intro h
    obtain ⟨hitems, hislands⟩ := h
    ext1
    · simp only [liveView, replayView, hitems, List.isEmpty_nil, if_true]
      exact hcounted hitems
    · funext scenario
      simp only [liveView, replayView, hitems, List.any_nil]
    · rfl
    · rfl
    · exact hislands

/-- After every history of progress packets, a client that was there and one
that enters now show the same progress exactly when no shine was reported and
the memory under each flag the replay leaves unwritten holds the flag sent. -/
theorem late_joiner_agrees_iff {γ : Type} (game : SingleModeGame γ) (hgame : game.Lawful)
    (mem : CString → Bool) (s : Server) (save : Buffer sharedSaveCapacity) (hs : Linked s)
    (hfresh : s.mSaveData = .fresh save) (node : ClientNode) (hnode : node ∈ s.mClients)
    (history : List (ClientNode × ProgressPacket)) (hhistory : ∀ item ∈ history, Sendable s item)
    (live late : γ) (hlive : game.progress live = .empty) (hlate : game.progress late = .empty) :
    let memory := fun data : ScenarioUpdateData => mem data.islandName
    let sys := history.foldl (liveStep game memory node) ⟨s, live⟩
    game.progress sys.live = game.progress (joined game memory sys.server.mSaveData late) ↔
      (∀ item ∈ history, item.2.isReport = false) ∧ MemoryRight game.islandNames mem history := by
  intro memory sys
  have hshown := shown_history hgame memory node history ⟨s, live⟩
  rw [LiveSystem.shown, LiveSystem.shown, hlive] at hshown
  have hinv : LiveInv s game.islandNames history
      (history.foldl (liveStep (progressGame game.islandNames) memory node) ⟨s, .empty⟩) :=
    liveInv_history hs hfresh hnode hhistory
  rw [← hshown] at hinv
  have hjoined : game.progress (joined game memory sys.server.mSaveData late) =
      replayView game.islandNames sys.server.mSaveData fun name => some (mem name) := by
    rw [joined, progress_foldl hgame, hlate]
    exact joined_view mem hinv.short
  have hview : game.progress sys.live = _ := hinv.view
  rw [hjoined, hview, views_agree_iff hinv.counted hinv.flagged, hinv.reported]
  rfl

/-- The client in a slot of the sample server. -/
def player (slot : ℕ) : ClientNode :=
  ⟨calcEnetAddressHashCode (peerAt slot).address, slot,
    { mPeer := peerAt slot, mHasGreeting := true, mUid := ⟨UInt64.ofNat slot, 0⟩ }⟩

/-- A scene with one island. -/
def oneIsland : SingleModeGame Progress := progressGame [[97]]

/-- Client 2 was there for a history of the sample server. -/
def sampleLive (memory : ScenarioUpdateData → Bool) (history : List (ClientNode × ProgressPacket)) :
    LiveSystem Progress :=
  history.foldl (liveStep oneIsland memory (player 2)) ⟨serverWith [1, 2], .empty⟩

/-- A client that enters after it. -/
def sampleJoined (memory : ScenarioUpdateData → Bool)
    (history : List (ClientNode × ProgressPacket)) : Progress :=
  joined oneIsland memory (sampleLive memory history).server.mSaveData .empty

/-- One client has changed the island's scenario, with the flag set, and
unlocked a toad; client 2 has found a shard. -/
def sampleHistory : List (ClientNode × ProgressPacket) :=
  [(player 1, .scenarioUpdate [97] 2 true), (player 2, .shardCollect 1 3), (player 1, .toadUnlock 4)]

/-- With the right memory the clients agree. -/
theorem late_joiner_agrees_sample :
    (sampleLive (fun _ => true) sampleHistory).live =
      sampleJoined (fun _ => true) sampleHistory := by
  have hlinked : Linked (serverWith [1, 2]) := by
    constructor <;> decide
  have hclients : (serverWith [1, 2]).mClients = [player 1, player 2] := rfl
  have hone : player 1 ∈ (serverWith [1, 2]).mClients := by
    rw [hclients]
    exact List.mem_cons_self
  have htwo : player 2 ∈ (serverWith [1, 2]).mClients := by
    rw [hclients]
    exact List.mem_cons_of_mem _ List.mem_cons_self
  have hhistory : ∀ item ∈ sampleHistory, Sendable (serverWith [1, 2]) item := by
    simp only [sampleHistory, List.forall_mem_cons]
    exact ⟨⟨hone, by decide⟩, ⟨htwo, trivial⟩, ⟨hone, trivial⟩, fun _ h => absurd h List.not_mem_nil⟩
  have hright : MemoryRight oneIsland.islandNames (fun _ => true) sampleHistory := by
    intro name hname flag hflag
    rw [List.mem_singleton.mp hname] at hflag
    exact Option.some.inj hflag
  exact (late_joiner_agrees_iff oneIsland (progressGame_lawful _) (fun _ => true)
    (serverWith [1, 2]) _ hlinked rfl (player 2) htwo sampleHistory hhistory .empty .empty rfl
    rfl).mpr ⟨by decide, hright⟩

/-- A reported shine is complete for the client that was there and not for the
one that enters later, and a flag that was sent is not the flag of the replay. -/
theorem late_joiner_misses_shine :
    let report : List (ClientNode × ProgressPacket) := [(player 1, .goalItemInfo ⟨1, 1⟩)]
    let update : List (ClientNode × ProgressPacket) := [(player 1, .scenarioUpdate [97] 2 true)]
    let memory : ScenarioUpdateData → Bool := fun _ => false
    (sampleLive memory report).live.completed (0, 0) = true ∧
      (sampleJoined memory report).completed (0, 0) = false ∧
      (sampleLive memory update).live.islands 0 = some (2, true) ∧
      (sampleJoined memory update).islands 0 = some (2, false) := by
  decide

end BfMultiplayer.LateJoin

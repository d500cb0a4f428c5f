import BfMultiplayer.GuardedRuns
import BfMultiplayer.ListFacts
import BfMultiplayer.ProgressRules
import BfMultiplayer.SaveFile

/-!
# Toads and shards as sets

Each branch of the handler for small map events keeps a list of its own. The
one for toads looks for the character first, so that its list is the set of all
toads received since the last reset. The one for shards appends without
looking: its list is a set as long as no shard is received that is listed
already.
-/

namespace BfMultiplayer.CollectibleSets

open Packets ServerState ServerHandlers EventLoopRules ClientLinks ProgressRules GuardedRuns
  ListFacts SaveFile

/-- The character that a packet unlocks. -/
def toadsOf : ServerBound → List ℤ
  | .miscMapSync (.toadUnlock character) => [character]
  | _ => []

/-- The shard that a packet collects. -/
def shardsOf : ServerBound → List GoalItemCollectData
  | .miscMapSync (.shardCollect zoneID shardID) => [⟨zoneID, shardID⟩]
  | _ => []

/-- A small map event, as the replay sends it for toads and shards. -/
def isMiscMapSync : ClientBound → Bool
  | .miscMapSync _ _ => true
  | _ => false

/-- How many toad and shard packets the replay sends. -/
def replayedCollectibles (data : ServerSaveData) : ℕ :=
  (sceneEnterReplay data).countP isMiscMapSync

/-- The server with what it has received since the last reset. -/
structure CollectServer where
  /-- The server. -/
  server : Server
  /-- Characters of the handled packets. -/
  toads : List ℤ
  /-- Shards of the handled packets. -/
  shards : List GoalItemCollectData

/-- What can happen next. -/
inductive CollectAction where
  /-- An event of the ENet host. -/
  | event (event : ENetEvent)
  /-- The console command, with the files it finds. -/
  | resetsave (files : SaveFiles)

/-- One step of the event loop or the console. -/
def collectStep (sys : CollectServer) : CollectAction → Option CollectServer
  | .event event => (exeService sys.server event).map fun result =>
    let packets := (handled sys.server event).toList.map Prod.snd
    { server := result.1
      toads := sys.toads ++ packets.flatMap toadsOf
      shards := sys.shards ++ packets.flatMap shardsOf }
  | .resetsave files =>
    match reset files sys.server.mSaveData with
    | .ok data => some ⟨{ sys.server with mSaveData := data }, [], []⟩
    | .error _ => none

/-- A server that has received nothing. -/
def CollectServer.start (s : Server) : CollectServer := ⟨s, [], []⟩

/-- The lists are the sets of what was received, and so short is the replay. -/
structure CollectServer.Sets (sys : CollectServer) : Prop where
  /-- Toads. -/
  toads : StoresSet sys.toads sys.server.mSaveData.unlockedToads
  /-- Shards. -/
  shards : StoresSet sys.shards sys.server.mSaveData.collectedShards
  /-- At most one packet for each collectible. -/
  replay : replayedCollectibles sys.server.mSaveData ≤
    sys.toads.dedup.length + sys.shards.dedup.length

/-- A handled packet collects no shard that is listed. -/
def NewShards (sys : CollectServer) : CollectAction → Prop
  | .event event => ∀ taken ∈ handled sys.server event, ∀ shard ∈ shardsOf taken.2,
    shard ∉ sys.server.mSaveData.collectedShards
  | .resetsave _ => True

instance (sys : CollectServer) : ∀ action, Decidable (NewShards sys action)
  | .event _ => inferInstanceAs (Decidable (∀ taken ∈ handled _ _, _))
  | .resetsave _ => inferInstanceAs (Decidable True)

/-- The replay sends one packet for each entry of the two lists. -/
theorem replayedCollectibles_eq (data : ServerSaveData) :
    replayedCollectibles data = data.unlockedToads.length + data.collectedShards.length := by
  have hislands : ∀ islands : List (CString × ℤ),
      (islands.map replayScenario).countP isMiscMapSync = 0 := by
    intro islands
    induction islands with
    | nil => rfl
    | cons island islands ih => exact ih
  have hshines : ∀ count (shines : List GoalItemCollectData),
      (shines.map (replayGoalItem count)).countP isMiscMapSync = 0 := by
    intro count shines
    induction shines with
    | nil => rfl
    | cons shine shines ih => exact ih
  have htoads : ∀ toads : List ℤ, (toads.map replayToad).countP isMiscMapSync = toads.length := by
    intro toads
    rw [List.countP_map]
    exact List.countP_eq_length.mpr fun _ _ => rfl
  have hshards : ∀ shards : List GoalItemCollectData,
      (shards.map replayShard).countP isMiscMapSync = shards.length := by
    intro shards
    rw [List.countP_map]
    exact List.countP_eq_length.mpr fun _ _ => rfl
  rw [replayedCollectibles, sceneEnterReplay, List.countP_append, List.countP_append,
    List.countP_append, hislands, hshines, htoads, hshards]
  omega

/-- The lists of one packet have at most one entry. -/
theorem nodup_toadsOf (packet : ServerBound) : (toadsOf packet).Nodup := by
  unfold toadsOf
  split
  · exact List.nodup_singleton _
  · exact List.nodup_nil

/-- So has the one for shards. -/
theorem nodup_shardsOf (packet : ServerBound) : (shardsOf packet).Nodup := by
  unfold shardsOf
  split
  · exact List.nodup_singleton _
  · exact List.nodup_nil

/-- A packet that reports no progress collects nothing. -/
theorem collects_nothing {packet : ServerBound} (h : reportsProgress packet = false) :
    toadsOf packet = [] ∧ shardsOf packet = [] := by
  cases packet with
  | miscMapSync data =>
    cases data with
    | toadUnlock character => cases h
    | shardCollect zoneID shardID => cases h
    | _ => exact ⟨rfl, rfl⟩
  | _ => exact ⟨rfl, rfl⟩

/-- A packet appends its toad where it is new, and its shard always. -/
theorem collects {before after : ServerSaveData} {packet : ServerBound}
    {saved : List ServerSaveData} (h : ProgressStep before packet after saved) :
    after.unlockedToads = before.unlockedToads ++
        (toadsOf packet).filter (fun a => a ∉ before.unlockedToads) ∧
      after.collectedShards = before.collectedShards ++ shardsOf packet := by
  have hneither : toadsOf packet = [] → shardsOf packet = [] →
      before.unlockedToads = before.unlockedToads ++
          (toadsOf packet).filter (fun a => a ∉ before.unlockedToads) ∧
        before.collectedShards = before.collectedShards ++ shardsOf packet := by
    intro htoads hshards
    rw [htoads, hshards, List.filter_nil, List.append_nil, List.append_nil]
    exact ⟨rfl, rfl⟩
  cases h with
  | same hquiet =>
    obtain ⟨htoads, hshards⟩ := collects_nothing hquiet
    exact hneither htoads hshards
  | flipped data state => exact hneither rfl rfl
  | island data => exact hneither rfl rfl
  | repeated hknown => exact hneither rfl rfl
  | reported hnew hafter =>
    rw [hafter]
    exact hneither rfl rfl
  | @known character hknown =>
    have hold : (toadsOf (.miscMapSync (.toadUnlock character))).filter
        (fun a => a ∉ before.unlockedToads) = [] := by
      rw [toadsOf, List.filter_eq_nil_iff]
      intro a ha
      rw [List.mem_singleton.mp ha, decide_eq_true_iff]
      exact fun hnot => hnot hknown
    rw [hold, List.append_nil]
    exact ⟨rfl, (List.append_nil _).symm⟩
  | @toad character after hnew hafter =>
    have hold : (toadsOf (.miscMapSync (.toadUnlock character))).filter
        (fun a => a ∉ before.unlockedToads) = [character] := by
      rw [toadsOf, List.filter_eq_self]
      intro a ha
      rw [List.mem_singleton.mp ha, decide_eq_true_iff]
      exact hnew
    rw [hold, hafter]
    exact ⟨rfl, (List.append_nil _).symm⟩
  | shard hafter =>
    rw [hafter]
    exact ⟨(List.append_nil _).symm, rfl⟩
  | committed hsize hafter =>
    rw [hafter]
    exact hneither rfl rfl

/-- Two lists that are sets give a replay that is short enough. -/
theorem CollectServer.Sets.of_lists {sys : CollectServer}
    (htoads : StoresSet sys.toads sys.server.mSaveData.unlockedToads)
    (hshards : StoresSet sys.shards sys.server.mSaveData.collectedShards) : sys.Sets := by
  refine ⟨htoads, hshards, ?_⟩
  have hcount := replayedCollectibles_eq sys.server.mSaveData
  have htoadCount := htoads.length_eq
  have hshardCount := hshards.length_eq
  omega

/-- An event keeps the lists sets exactly when it collects no listed shard. -/
theorem event_sets_iff {sys : CollectServer} (hsys : sys.Sets) {event : ENetEvent} {t : Server}
    {effects : List Effect} (h : exeService sys.server event = some (t, effects)) :
    let packets := (handled sys.server event).toList.map Prod.snd
    CollectServer.Sets
        ⟨t, sys.toads ++ packets.flatMap toadsOf, sys.shards ++ packets.flatMap shardsOf⟩ ↔
      NewShards sys (.event event) := by
  intro packets
  rcases exeService_progress h with ⟨hnone, hdata, -⟩ | ⟨node, packet, htaken, hpacket⟩
  · have hpackets : packets = [] := by simp only [packets, hnone, Option.toList_none, List.map_nil]
    have hkept : StoresSet sys.toads t.mSaveData.unlockedToads ∧
        StoresSet sys.shards t.mSaveData.collectedShards := by
      rw [hdata]
      exact ⟨hsys.toads, hsys.shards⟩
    rw [hpackets, List.flatMap_nil, List.flatMap_nil, List.append_nil, List.append_nil]
    refine iff_of_true (.of_lists hkept.1 hkept.2) ?_
    intro taken htaken
    rw [hnone] at htaken
    cases htaken
  · have hpackets : packets = [packet] := by
      simp only [packets, htaken, Option.toList_some, List.map_cons, List.map_nil]
    have hnew : NewShards sys (.event event) ↔
        ∀ shard ∈ shardsOf packet, shard ∉ sys.server.mSaveData.collectedShards := by
      simp only [NewShards, htaken, Option.mem_some, forall_eq']
    obtain ⟨htoads, hshards⟩ := collects hpacket
    have htoadSet := hsys.toads.append_new (nodup_toadsOf packet)
    have hshardSet := hsys.shards.append_iff (nodup_shardsOf packet)
    rw [← htoads] at htoadSet
    rw [← hshards] at hshardSet
    rw [hpackets, List.flatMap_singleton, List.flatMap_singleton, hnew, ← hshardSet]
    exact ⟨fun hsets => hsets.shards, fun hset => .of_lists htoadSet hset⟩

/-- One step keeps the lists sets exactly when it collects no listed shard. -/
theorem collectStep_sets_iff {sys next : CollectServer} {action : CollectAction} (hsys : sys.Sets)
    (hstep : collectStep sys action = some next) : next.Sets ↔ NewShards sys action := by
  cases action with
  | event event =>
    obtain ⟨⟨t, effects⟩, hservice, rfl⟩ := Option.map_eq_some_iff.mp hstep
    exact event_sets_iff hsys hservice
  | resetsave files =>
    simp only [collectStep] at hstep
    split at hstep
    · rename_i data hreset
      obtain ⟨size, shared, -, hdata⟩ := loadShared_ok hreset
      cases hstep
      have htoads : data.unlockedToads = [] := by rw [hdata, withShared]
      have hshards : data.collectedShards = [] := by rw [hdata, withShared]
      refine iff_of_true (.of_lists ?_ ?_) trivial
      · rw [htoads]
        exact .nil
      · rw [hshards]
        exact .nil
    · cases hstep

/-- A step that is undefined collects no shard. -/
theorem newShards_of_undefined {sys : CollectServer} {action : CollectAction}
    (h : collectStep sys action = none) : NewShards sys action := by
  cases action with
  | resetsave files => trivial
  | event event =>
    have hundefined : exeService sys.server event = none := Option.map_eq_none_iff.mp h
    intro taken htaken shard hshard
    obtain ⟨now, hservice⟩ := exeService_of_handled (Option.mem_def.mp htaken)
    have hchunk : ∃ chunk, taken.2 = .saveDataChunk chunk := by
      by_contra hne
      have hdefined := handlePacket_isSome sys.server taken.1 now fun chunk he => hne ⟨chunk, he⟩
      rw [← hservice, hundefined] at hdefined
      cases hdefined
    obtain ⟨chunk, he⟩ := hchunk
    rw [he] at hshard
    cases hshard

/-- From a server without toads and shards on, the two lists are the sets of
what was received since the last reset, at every point of a run, exactly when
no handled packet collects a shard that is listed. -/
theorem collectibles_are_sets_iff (s : Server) (htoads : s.mSaveData.unlockedToads = [])
    (hshards : s.mSaveData.collectedShards = []) (actions : List CollectAction) :
    Throughout CollectServer.Sets collectStep (.start s) actions ↔
      Along NewShards collectStep (.start s) actions := by
  have hstart : (CollectServer.start s).Sets := by
    refine .of_lists ?_ ?_
    · simp only [CollectServer.start, htoads]
      exact .nil
    · simp only [CollectServer.start, hshards]
      exact .nil
  exact throughout_iff_along (fun _ _ _ => collectStep_sets_iff)
    (fun _ _ => newShards_of_undefined) hstart

/-- A small map event of a client. -/
def miscPacket (slot : ℕ) (data : MiscMapSyncData) : CollectAction :=
  .event (.receive (peerAt slot) (.miscMapSync data) 0)

/-- Two clients unlock one toad and collect different shards. -/
def differentShards : List CollectAction :=
  [miscPacket 1 (.toadUnlock 5), miscPacket 1 (.shardCollect 2 0), miscPacket 2 (.toadUnlock 5),
    miscPacket 2 (.shardCollect 2 1)]

/-- These lists are sets. -/
theorem different_shards_are_sets :
    Throughout CollectServer.Sets collectStep (.start (serverWith [1, 2])) differentShards :=
  (collectibles_are_sets_iff (serverWith [1, 2]) rfl rfl differentShards).mpr (by decide)

/-- Two clients collect the same shard: it is listed and replayed twice. -/
theorem repeated_shard_is_listed_twice :
    ¬Throughout CollectServer.Sets collectStep (.start (serverWith [1, 2]))
      [miscPacket 1 (.shardCollect 2 0), miscPacket 2 (.shardCollect 2 0)] := by
  intro h
  have hrun : ∃ sys, run collectStep (.start (serverWith [1, 2]))
      [miscPacket 1 (.shardCollect 2 0), miscPacket 2 (.shardCollect 2 0)] = some sys ∧
        ¬sys.server.mSaveData.collectedShards.Nodup :=
    run_reaches (by decide)
  obtain ⟨sys, hreached, hdup⟩ := hrun
  exact hdup (h.2 sys hreached).shards.nodup

end BfMultiplayer.CollectibleSets

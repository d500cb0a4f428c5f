import BfMultiplayer.GuardedRuns
import BfMultiplayer.ProgressRules

/-!
# The stored progress and its last save

Every handler that stores a shine, a toad, a shard or a shared save writes the
save files before it returns. The handler of scenario changes does not: until
some other handler saves, the files lack the change. The files agree with the
progress after every event of a run exactly when no scenario packet of the run
changes what is stored.
-/

namespace BfMultiplayer.ProgressDurability

open ByteBuffer Packets ServerState ServerHandlers EventLoopRules ClientLinks ProgressRules
  GuardedRuns

/-- The progress that two values agree on; the panels are left out. -/
structure SameProgress (a b : ServerSaveData) : Prop where
  /-- Counter. -/
  numCollectedGoalItems : a.numCollectedGoalItems = b.numCollectedGoalItems
  /-- Shines. -/
  collectedGoalItems : a.collectedGoalItems = b.collectedGoalItems
  /-- Islands. -/
  islandToScenarioMap : a.islandToScenarioMap = b.islandToScenarioMap
  /-- Toads. -/
  unlockedToads : a.unlockedToads = b.unlockedToads
  /-- Shards. -/
  collectedShards : a.collectedShards = b.collectedShards
  /-- Size of the shared save. -/
  sharedSaveSize : a.sharedSaveSize = b.sharedSaveSize
  /-- Its bytes. -/
  sharedSave : firstBytes a.sharedSave a.sharedSaveSize = firstBytes b.sharedSave b.sharedSaveSize

/-- The server with the values at its last completed save. -/
structure DiskServer where
  /-- The server. -/
  server : Server
  /-- What the last save wrote. -/
  disk : ServerSaveData

/-- A server that has just been saved, as it is after it was loaded. -/
def DiskServer.start (s : Server) : DiskServer := ⟨s, s.mSaveData⟩

/-- The event loop takes an event; of several saves the last one counts. -/
def diskStep (sys : DiskServer) (event : ENetEvent) : Option DiskServer :=
  (exeService sys.server event).map fun result =>
    ⟨result.1, (savedValues result.2).getLast?.getD sys.disk⟩

/-- A crash now would lose no progress. -/
def DiskServer.Durable (sys : DiskServer) : Prop := SameProgress sys.disk sys.server.mSaveData

/-- A scenario packet tells what is stored already. -/
def KnownScenario (data : ServerSaveData) : ServerBound → Prop
  | .scenarioUpdate update => data.islandToScenarioMap[update.islandName]? = some update.scenario
  | _ => True

/-- So does every scenario packet that is handled. -/
def KeepsScenarios (sys : DiskServer) (event : ENetEvent) : Prop :=
  ∀ taken ∈ handled sys.server event, KnownScenario sys.server.mSaveData taken.2

/-- Storing a value under a name changes nothing exactly when it is there. -/
theorem insert_eq_self_iff (map : ScenarioMap) (name : CString) (scenario : ℤ) :
    map = map.insert name scenario ↔ map[name]? = some scenario := by
  constructor
  · intro h
    rw [h]
    exact Std.ExtTreeMap.getElem?_insert_self
  · intro h
    apply Std.ExtTreeMap.ext_getElem?
    intro key
    rw [Std.ExtTreeMap.getElem?_insert]
    split
    · rename_i hcmp
      rw [← Std.LawfulEqCmp.eq_of_compare hcmp, h]
    · rfl

/-- Progress agrees with itself. -/
theorem SameProgress.refl (a : ServerSaveData) : SameProgress a a :=
  ⟨rfl, rfl, rfl, rfl, rfl, rfl, rfl⟩

/-- Progress that agrees with the last save still does after a packet exactly
when the packet tells no new scenario. -/
theorem saved_agrees_iff {disk before after : ServerSaveData} {packet : ServerBound}
    {saved : List ServerSaveData} (h : ProgressStep before packet after saved)
    (hdisk : SameProgress disk before) :
    SameProgress (saved.getLast?.getD disk) after ↔ KnownScenario before packet := by
  cases h with
  | same hquiet =>
    have hknown : KnownScenario before packet := by
      cases packet with
      | scenarioUpdate data => cases hquiet
      | _ => trivial
    exact iff_of_true hdisk hknown
  | flipped data state =>
    obtain ⟨hcount, hitems, hislands, htoads, hshards, hsize, hbytes⟩ := hdisk
    exact iff_of_true ⟨hcount, hitems, hislands, htoads, hshards, hsize, hbytes⟩ trivial
  | island data =>
    obtain ⟨hcount, hitems, hislands, htoads, hshards, hsize, hbytes⟩ := hdisk
    rw [KnownScenario, ← insert_eq_self_iff]
    constructor
    · intro hsame
      exact hislands.symm.trans hsame.islandToScenarioMap
    · intro hmap
      exact ⟨hcount, hitems, hislands.trans hmap, htoads, hshards, hsize, hbytes⟩
  | known hknown => exact iff_of_true hdisk trivial
  | repeated hknown => exact iff_of_true (.refl _) trivial
  | reported hnew hafter => exact iff_of_true (.refl _) trivial
  | toad hnew hafter => exact iff_of_true (.refl _) trivial
  | shard hafter => exact iff_of_true (.refl _) trivial
  | committed hsize hafter => exact iff_of_true (.refl _) trivial

/-- One event keeps the files up to date exactly when it brings no new scenario. -/
theorem diskStep_durable_iff {sys next : DiskServer} {event : ENetEvent} (hsys : sys.Durable)
    (hstep : diskStep sys event = some next) : next.Durable ↔ KeepsScenarios sys event := by
  unfold diskStep at hstep
  rw [Option.map_eq_some_iff] at hstep
  obtain ⟨⟨t, effects⟩, hservice, rfl⟩ := hstep
  unfold KeepsScenarios
  rcases exeService_progress hservice with ⟨hnone, hdata, hsaved⟩ | ⟨node, packet, htaken, hpacket⟩
  · have hdurable : SameProgress ((savedValues effects).getLast?.getD sys.disk) t.mSaveData := by
      rw [hsaved, hdata]
      exact hsys
    rw [hnone]
    exact iff_of_true hdurable fun taken h => nomatch h
  · rw [htaken]
    refine (saved_agrees_iff hpacket hsys).trans ?_
    simp only [Option.mem_some, forall_eq']

/-- An event that the server cannot handle brings no scenario. -/
theorem keepsScenarios_of_undefined {sys : DiskServer} {event : ENetEvent}
    (h : diskStep sys event = none) : KeepsScenarios sys event := by
  have hundefined : exeService sys.server event = none := Option.map_eq_none_iff.mp h
  intro taken htaken
  obtain ⟨now, hservice⟩ := exeService_of_handled (Option.mem_def.mp htaken)
  obtain ⟨node, packet⟩ := taken
  cases packet with
  | scenarioUpdate data =>
    rw [hundefined] at hservice
    cases hservice
  | _ => trivial

/-- A server that starts with what its files hold agrees with them before and
after every event exactly when no scenario packet of the run changes anything. -/
theorem progress_durable_iff (s : Server) (events : List ENetEvent) :
    Throughout DiskServer.Durable diskStep (.start s) events ↔
      Along KeepsScenarios diskStep (.start s) events :=
  throughout_iff_along (fun _ _ _ => diskStep_durable_iff)
    (fun _ _ => keepsScenarios_of_undefined) (.refl _)

/-- A scenario update of a client. -/
def scenarioPacket (slot : ℕ) (name : CString) (scenario : ℤ) : ENetEvent :=
  .receive (peerAt slot) (.scenarioUpdate ⟨name, scenario, some true⟩) 0

/-- The first scenario that a client sends is not in the files. -/
theorem scenario_is_not_saved :
    ¬Throughout DiskServer.Durable diskStep (.start (serverWith [1])) [scenarioPacket 1 [76] 2] := by
  intro h
  have hrun : ∃ sys, run diskStep (.start (serverWith [1])) [scenarioPacket 1 [76] 2] = some sys ∧
      sys.disk.islandToScenarioMap[([76] : CString)]? = none ∧
      sys.server.mSaveData.islandToScenarioMap[([76] : CString)]? = some 2 :=
    run_reaches (by decide)
  obtain ⟨sys, hreached, hdisk, hmemory⟩ := hrun
  have hdurable := (h.2 sys hreached).islandToScenarioMap
  rw [hdurable, hmemory] at hdisk
  cases hdisk

end BfMultiplayer.ProgressDurability

import BfMultiplayer.ListFacts
import BfMultiplayer.Packets

/-!
# Progress of a client and its packet handlers

The game keeps the progress of a client: its shine counter, its completed
scenarios, collected shards and unlocked characters, and the scenarios of the
islands of the scene. The game's code is not part of the repository, so its
state and functions are parameters. What the handlers rely on is that each
function changes the progress as its name says, and the counter together with
the completed scenarios.
-/

namespace BfMultiplayer.ClientProgress

open Packets ListFacts

/-- The progress a client shows. -/
@[ext] structure Progress where
  /-- `mNumGoalItems`. -/
  mNumGoalItems : ℤ
  /-- Which scenarios are complete, counted from zero. -/
  completed : ℤ × ℤ → Bool
  /-- Which shards are collected, counted from zero. -/
  shards : ℤ × ℤ → Bool
  /-- Which toad characters are unlocked. -/
  unlockedChars : ℤ → Bool
  /-- The last arguments of `setScenarioID` for each island of the scene. -/
  islands : ℕ → Option (ℤ × Bool)

/-- No progress. -/
def Progress.empty : Progress := ⟨0, fun _ => false, fun _ => false, fun _ => false, fun _ => none⟩

/-- Assign the counter. -/
def Progress.setNumGoalItems (p : Progress) (n : ℤ) : Progress := { p with mNumGoalItems := n }

/-- Complete a scenario: it counts once. -/
def Progress.completeScenario (p : Progress) (scenario : ℤ × ℤ) : Progress :=
  { p with
    mNumGoalItems := if p.completed scenario then p.mNumGoalItems else p.mNumGoalItems + 1
    completed := Function.update p.completed scenario true }

/-- Collect a shard. -/
def Progress.collectShard (p : Progress) (shard : ℤ × ℤ) : Progress :=
  { p with shards := Function.update p.shards shard true }

/-- Unlock a character. -/
def Progress.setUnlockedChar (p : Progress) (character : ℤ) : Progress :=
  { p with unlockedChars := Function.update p.unlockedChars character true }

/-- Set the scenario of an island. -/
def Progress.setScenarioID (p : Progress) (island : ℕ) (scenario : ℤ) (unk : Bool) : Progress :=
  { p with islands := Function.update p.islands island (some (scenario, unk)) }

/-- The game as the handlers use it: its state and the functions called on it. -/
structure SingleModeGame (γ : Type) where
  /-- The progress in a state. -/
  progress : γ → Progress
  /-- Assignment to `mData->mNumGoalItems`. -/
  setNumGoalItems : γ → ℤ → γ
  /-- `SingleModeDataFunction::completeScenario`. -/
  completeScenario : γ → ℤ → ℤ → γ
  /-- The shine of an island is collected in the game. -/
  collectGoalItem : γ → ℤ → ℤ → γ
  /-- `SingleModeDataFunction::collectShard`. -/
  collectShard : γ → ℤ → ℤ → γ
  /-- `SingleModeDataFunction::setUnlockedChar`. -/
  setUnlockedChar : γ → ℤ → γ
  /-- `IslandHolder::setScenarioID` on the island with this index. -/
  setScenarioID : γ → ℕ → ℤ → Bool → γ
  /-- The names of `mIslandKeeper->mIslands`. -/
  islandNames : List CString

/-- What the functions of the game do to the progress. -/
structure SingleModeGame.Lawful {γ : Type} (game : SingleModeGame γ) : Prop where
  /-- The assignment changes the counter alone. -/
  setNumGoalItems : ∀ g n, game.progress (game.setNumGoalItems g n) =
    (game.progress g).setNumGoalItems n
  /-- A completed scenario is counted when it was not complete. -/
  completeScenario : ∀ g island shine, game.progress (game.completeScenario g island shine) =
    (game.progress g).completeScenario (island, shine)
  /-- A collected shine completes its scenario. -/
  collectGoalItem : ∀ g island shine, game.progress (game.collectGoalItem g island shine) =
    (game.progress g).completeScenario (island - 1, shine - 1)
  /-- A shard is collected. -/
  collectShard : ∀ g zone shard, game.progress (game.collectShard g zone shard) =
    (game.progress g).collectShard (zone, shard)
  /-- A character is unlocked. -/
  setUnlockedChar : ∀ g character, game.progress (game.setUnlockedChar g character) =
    (game.progress g).setUnlockedChar character
  /-- A scenario is set. -/
  setScenarioID : ∀ g island scenario unk,
    game.progress (game.setScenarioID g island scenario unk) =
      (game.progress g).setScenarioID island scenario unk

/-- The game whose state is the progress itself. -/
def progressGame (islandNames : List CString) : SingleModeGame Progress where
  progress := id
  setNumGoalItems := Progress.setNumGoalItems
  completeScenario p island shine := p.completeScenario (island, shine)
  collectGoalItem p island shine := p.completeScenario (island - 1, shine - 1)
  collectShard p zone shard := p.collectShard (zone, shard)
  setUnlockedChar := Progress.setUnlockedChar
  setScenarioID := Progress.setScenarioID
  islandNames := islandNames

/-- It is lawful. -/
theorem progressGame_lawful (islandNames : List CString) : (progressGame islandNames).Lawful := by
  constructor <;> intros <;> rfl

section Handlers

variable {γ : Type} (game : SingleModeGame γ)

/-- `handleToC_GoalItemInfo`. The ids come with the flag. -/
def handleToC_GoalItemInfo (g : γ) (packet : ToC_GoalItemInfo) : γ :=
  if packet.isCollectNewShine then
    -- one is going to be added by `completeScenario`
    let g := game.setNumGoalItems g (packet.numCollectedGoalItems - 1)
    match packet.islandID, packet.shineID with
    | some islandID, some shineID => game.completeScenario g (islandID - 1) (shineID - 1)
    | _, _ => g
  else game.setNumGoalItems g packet.numCollectedGoalItems

/-- `handleToC_ScenarioUpdate`: the first island of that name. A flag that was
not written is whatever its memory holds. -/
def handleToC_ScenarioUpdate (memory : Bool) (g : γ) (data : ScenarioUpdateData) : γ :=
  match game.islandNames.idxOf? data.islandName with
  | some island => game.setScenarioID g island data.scenario (data.unk.getD memory)
  | none => g

/-- `handleToC_MiscMapSync` on the progress. -/
def handleToC_MiscMapSync (g : γ) (data : MiscMapSyncData) : γ :=
  match data with
  | .shardCollect zoneID shardID =>
    if (game.progress g).shards (zoneID - 1, shardID - 1) then g
    else game.collectShard g (zoneID - 1) (shardID - 1)
  | .toadUnlock character => game.setUnlockedChar g character
  | _ => g

/-- The handlers of the packets that carry progress. The memory under an
unwritten flag may depend on the packet. -/
def handleProgressPacket (memory : ScenarioUpdateData → Bool) (g : γ) : ClientBound → γ
  | .goalItemInfo packet => handleToC_GoalItemInfo game g packet
  | .scenarioUpdate _ data => handleToC_ScenarioUpdate game (memory data) g data
  | .miscMapSync _ data => handleToC_MiscMapSync game g data
  | _ => g

/-- Where the game keeps the scenario of a shine, or a shard of a zone: packets
count from one, the game from zero. -/
def zeroBased (islandID shineID : ℤ) : ℤ × ℤ := (islandID - 1, shineID - 1)

/-- A packet announces that a scenario is complete. -/
def Announces (packet : ToC_GoalItemInfo) (scenario : ℤ × ℤ) : Prop :=
  packet.isCollectNewShine = true ∧ ∃ islandID shineID, packet.islandID = some islandID ∧
    packet.shineID = some shineID ∧ scenario = zeroBased islandID shineID

variable {game}

/-- A packet without a new shine assigns the counter. -/
theorem handleToC_GoalItemInfo_old {packet : ToC_GoalItemInfo} (h : packet.isCollectNewShine = false)
    (g : γ) : handleToC_GoalItemInfo game g packet =
      game.setNumGoalItems g packet.numCollectedGoalItems := by
  rw [handleToC_GoalItemInfo, h]
  rfl

/-- A packet with a new shine assigns the counter below and completes the
scenario. -/
theorem handleToC_GoalItemInfo_new {packet : ToC_GoalItemInfo} {islandID shineID : ℤ}
    (h : packet.isCollectNewShine = true) (hisland : packet.islandID = some islandID)
    (hshine : packet.shineID = some shineID) (g : γ) :
    handleToC_GoalItemInfo game g packet =
      game.completeScenario (game.setNumGoalItems g (packet.numCollectedGoalItems - 1))
        (islandID - 1) (shineID - 1) := by
  simp only [handleToC_GoalItemInfo, h, hisland, hshine, if_true]

/-- Different shines complete different scenarios. -/
theorem zeroBased_inj {island shine island' shine' : ℤ}
    (h : zeroBased island shine = zeroBased island' shine') :
    island = island' ∧ shine = shine' := by
  simp only [zeroBased, Prod.mk.injEq] at h
  omega

/-- Completing a scenario adds it to the completed ones. -/
theorem completed_completeScenario (p : Progress) (done scenario : ℤ × ℤ) :
    (p.completeScenario done).completed scenario = true ↔
      p.completed scenario = true ∨ scenario = done := by
  simp only [Progress.completeScenario, Function.update_apply]
  by_cases h : scenario = done
  · rw [if_pos h]
    exact iff_of_true rfl (Or.inr h)
  · rw [if_neg h]
    exact ⟨Or.inl, fun hor => hor.resolve_right h⟩

/-- A packet leaves a client with its counter, unless it announces a scenario
the client has already completed. -/
theorem counter_handle (hgame : game.Lawful) {g : γ} {packet : ToC_GoalItemInfo}
    (hnew : packet.isCollectNewShine = true → ∃ islandID shineID, packet.islandID = some islandID ∧
      packet.shineID = some shineID ∧
      (game.progress g).completed (zeroBased islandID shineID) = false) :
    (game.progress (handleToC_GoalItemInfo game g packet)).mNumGoalItems =
      packet.numCollectedGoalItems := by
  cases hflag : packet.isCollectNewShine with
  | false =>
    rw [handleToC_GoalItemInfo_old hflag, hgame.setNumGoalItems]
    rfl
  | true =>
    obtain ⟨islandID, shineID, hisland, hshine, hincomplete⟩ := hnew hflag
    rw [handleToC_GoalItemInfo_new hflag hisland hshine, hgame.completeScenario,
      hgame.setNumGoalItems]
    rw [zeroBased] at hincomplete
    simp only [Progress.completeScenario, Progress.setNumGoalItems, hincomplete,
      Bool.false_eq_true, if_false]
    omega

/-- A packet completes the scenario it announces and no other. -/
theorem completed_handle (hgame : game.Lawful) (g : γ) (packet : ToC_GoalItemInfo)
    (scenario : ℤ × ℤ) :
    (game.progress (handleToC_GoalItemInfo game g packet)).completed scenario = true ↔
      (game.progress g).completed scenario = true ∨ Announces packet scenario := by
  have hset : ∀ n, (game.progress (game.setNumGoalItems g n)).completed =
      (game.progress g).completed := by
    intro n
    rw [hgame.setNumGoalItems]
    rfl
  by_cases hids : packet.isCollectNewShine = true ∧ ∃ islandID shineID,
      packet.islandID = some islandID ∧ packet.shineID = some shineID
  · obtain ⟨hflag, islandID, shineID, hisland, hshine⟩ := hids
    rw [handleToC_GoalItemInfo_new hflag hisland hshine, hgame.completeScenario,
      completed_completeScenario, hset]
    refine or_congr_right ⟨fun h => ⟨hflag, islandID, shineID, hisland, hshine, h⟩, fun h => ?_⟩
    obtain ⟨-, islandID', shineID', hisland', hshine', hscenario⟩ := h
    rw [hisland, Option.some.injEq] at hisland'
    rw [hshine, Option.some.injEq] at hshine'
    rw [hscenario, ← hisland', ← hshine']
    rfl
  · -- nothing is announced, so only the counter is assigned
    have hnone : ¬Announces packet scenario := by
      intro h
      obtain ⟨hflag, islandID, shineID, hisland, hshine, -⟩ := h
      exact hids ⟨hflag, islandID, shineID, hisland, hshine⟩
    have hsame : (game.progress (handleToC_GoalItemInfo game g packet)).completed =
        (game.progress g).completed := by
      unfold handleToC_GoalItemInfo
      split
      · rename_i hflag
        cases hisland : packet.islandID with
        | none => exact hset _
        | some islandID =>
          cases hshine : packet.shineID with
          | none => exact hset _
          | some shineID => exact absurd ⟨hflag, islandID, shineID, hisland, hshine⟩ hids
      · exact hset _
    rw [hsame]
    exact ⟨Or.inl, fun h => h.resolve_right hnone⟩

/-- A shard packet leaves the shard collected, also when it already was. -/
theorem progress_shardCollect (hgame : game.Lawful) (g : γ) (zoneID shardID : ℤ) :
    game.progress (handleToC_MiscMapSync game g (.shardCollect zoneID shardID)) =
      (game.progress g).collectShard (zeroBased zoneID shardID) := by
  rw [handleToC_MiscMapSync]
  by_cases hcollected : (game.progress g).shards (zoneID - 1, shardID - 1) = true
  · rw [if_pos hcollected, Progress.collectShard, zeroBased, update_true_of_marked hcollected]
  · rw [if_neg hcollected]
    exact hgame.collectShard _ _ _

/-- Any lawful game shows the progress that the game of progress alone has. -/
theorem progress_handle (hgame : game.Lawful) (memory : ScenarioUpdateData → Bool) (g : γ)
    (packet : ClientBound) :
    game.progress (handleProgressPacket game memory g packet) =
      handleProgressPacket (progressGame game.islandNames) memory (game.progress g) packet := by
  cases packet with
  | goalItemInfo packet =>
    simp only [handleProgressPacket, handleToC_GoalItemInfo]
    split
    · cases packet.islandID with
      | none => exact hgame.setNumGoalItems _ _
      | some islandID =>
        cases packet.shineID with
        | none => exact hgame.setNumGoalItems _ _
        | some shineID =>
          dsimp only
          rw [hgame.completeScenario, hgame.setNumGoalItems]
          rfl
    · exact hgame.setNumGoalItems _ _
  | scenarioUpdate sender data =>
    simp only [handleProgressPacket, handleToC_ScenarioUpdate, progressGame]
    cases game.islandNames.idxOf? data.islandName with
    | none => rfl
    | some island => exact hgame.setScenarioID _ _ _ _
  | miscMapSync sender data =>
    simp only [handleProgressPacket]
    cases data with
    | shardCollect zoneID shardID =>
      rw [progress_shardCollect hgame]
      exact (progress_shardCollect (progressGame_lawful game.islandNames) _ _ _).symm
    | toadUnlock character => exact hgame.setUnlockedChar _ _
    | _ => rfl
  | _ => rfl

end Handlers

end BfMultiplayer.ClientProgress

import Mathlib.Tactic.Common

/-!
# The channels

The packet classes in the order of `PENET_CHANNELS`. The number of a class is
its place in the list: the list is expanded once into the tables of creators
and virtual tables, and once into the enumeration.
-/

namespace BfMultiplayer.Channels

/-- `ChannelType`. -/
inductive ChannelType where
  | ToS_Hello
  | ToS_Log
  | ToC_PlayerList
  | ToS_SingleModeSceneEnter
  | ToS_PuppetPose
  | ToC_PuppetPose
  | ToS_Action
  | ToC_Action
  | ToC_PlayerFigureChange
  | ToS_PlayerFigureChange
  | ToS_GoalItemInfo
  | ToC_GoalItemInfo
  | ToS_PhaseUnlock
  | ToC_PhaseUnlock
  | ToS_ScenarioUpdate
  | ToC_ScenarioUpdate
  | ToS_DisasterModeControllerInternalUpdate
  | ToC_DisasterModeControllerInternalUpdate
  | ToC_SyncClockUpdate
  | ToS_MiscMapSync
  | ToC_MiscMapSync
  | ToS_JumpFlip
  | ToC_JumpFlip
  | ToC_CheatPacket
  | SaveDataChunk
  deriving DecidableEq

/-- `PENET_CHANNELS`. -/
def penetChannels : List ChannelType :=
  [.ToS_Hello, .ToS_Log, .ToC_PlayerList, .ToS_SingleModeSceneEnter, .ToS_PuppetPose,
    .ToC_PuppetPose, .ToS_Action, .ToC_Action, .ToC_PlayerFigureChange, .ToS_PlayerFigureChange,
    .ToS_GoalItemInfo, .ToC_GoalItemInfo, .ToS_PhaseUnlock, .ToC_PhaseUnlock, .ToS_ScenarioUpdate,
    .ToC_ScenarioUpdate, .ToS_DisasterModeControllerInternalUpdate,
    .ToC_DisasterModeControllerInternalUpdate, .ToC_SyncClockUpdate, .ToS_MiscMapSync,
    .ToC_MiscMapSync, .ToS_JumpFlip, .ToC_JumpFlip, .ToC_CheatPacket, .SaveDataChunk]

/-- `sChannels.channelCount`. -/
def channelCount : ℕ := penetChannels.length

end BfMultiplayer.Channels

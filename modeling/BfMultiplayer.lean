import BfMultiplayer.ByteBuffer
import BfMultiplayer.GuardedRuns
import BfMultiplayer.Mailbox
import BfMultiplayer.Packets
import BfMultiplayer.ServerState
import BfMultiplayer.ServerHandlers
import BfMultiplayer.SaveChunkRules
import BfMultiplayer.SaveUploadAtomicity
import BfMultiplayer.EventLoopRules
import BfMultiplayer.SaveSessionOwner
import BfMultiplayer.SaveTransfer
import BfMultiplayer.SaveBufferBounds
import BfMultiplayer.JsonValue
import BfMultiplayer.SaveFile
import BfMultiplayer.ClientLinks
import BfMultiplayer.JumpFlip
import BfMultiplayer.ClientProgress
import BfMultiplayer.ShineCounter
import BfMultiplayer.LateJoin
import BfMultiplayer.ClientTable
import BfMultiplayer.Roster
import BfMultiplayer.PlayerListTruth
import BfMultiplayer.IslandScenarios
import BfMultiplayer.PeerRecords
import BfMultiplayer.BackgroundTasks
import BfMultiplayer.SnapshotReads
import BfMultiplayer.SavePasses
import BfMultiplayer.UploadSnapshot
import BfMultiplayer.DownloadSnapshot
import BfMultiplayer.DownloadHandshake
import BfMultiplayer.LoadOutcomes
import BfMultiplayer.ProgressRules
import BfMultiplayer.ProgressDurability
import BfMultiplayer.CollectibleSets
import BfMultiplayer.ShineAnnouncements
import BfMultiplayer.SaveRestarts
import BfMultiplayer.ShineLedger
import BfMultiplayer.ActorKill
import BfMultiplayer.EchoSuppression
import BfMultiplayer.Channels
import BfMultiplayer.EnetCalls
import BfMultiplayer.PacketRelease
import BfMultiplayer.LockBalance
import BfMultiplayer.PeerLifetime
import BfMultiplayer.PlayerSlots
import BfMultiplayer.LocalPlayer
import BfMultiplayer.PuppetLinks
import BfMultiplayer.CLayout
import BfMultiplayer.PacketCodec
import BfMultiplayer.DecoderBounds
import BfMultiplayer.WireRoundTrip
import BfMultiplayer.BlockHeap
import BfMultiplayer.PacketOwnership
import BfMultiplayer.FlipLimiter
import BfMultiplayer.RejectedChunks
import BfMultiplayer.ActionQueue
import BfMultiplayer.PoseSending
import BfMultiplayer.LogCodec
import BfMultiplayer.BowserHealth
import BfMultiplayer.SystemTicks
import BfMultiplayer.ClockMapParts
import BfMultiplayer.MemoryFields
import BfMultiplayer.ClientMap
import BfMultiplayer.PacketRelay
import BfMultiplayer.DisasterUpdate
import BfMultiplayer.RemotePackets
import BfMultiplayer.ClockPhases
import BfMultiplayer.FloatRounding
import BfMultiplayer.KeyPoses
import BfMultiplayer.FairProgress
import BfMultiplayer.PanelChain
import BfMultiplayer.PanelWave
import BfMultiplayer.LogRing
import BfMultiplayer.AsciiText
import BfMultiplayer.ServerAddress
import BfMultiplayer.ClientSearch
import BfMultiplayer.Console
import BfMultiplayer.PlayerSearch
import BfMultiplayer.PoseInterval
import BfMultiplayer.BijectiveNumerals
import BfMultiplayer.BpsNumbers
import BfMultiplayer.CrcRegister
import BfMultiplayer.Crc32
import BfMultiplayer.BpsApply
import BfMultiplayer.BpsFormat
import BfMultiplayer.BpsRefinement
import BfMultiplayer.BpsPatching
import BfMultiplayer.TextReplace
import BfMultiplayer.SafeStringReplace
import BfMultiplayer.CacheDirectories
import BfMultiplayer.TopMenuScene
import BfMultiplayer.MenuConnection
import BfMultiplayer.NetworkSave
import BfMultiplayer.SyncClock
import BfMultiplayer.RelayedSets
import BfMultiplayer.ShardActors
import BfMultiplayer.ShardRace
import BfMultiplayer.StatusText
import BfMultiplayer.RotateMapParts
import BfMultiplayer.PanelStarter
import BfMultiplayer.PanelReplay

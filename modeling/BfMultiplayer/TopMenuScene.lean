import BfMultiplayer.GuardedRuns
import BfMultiplayer.SaveChunkRules
import BfMultiplayer.ServerAddress

/-!
# The menu, the scene around it and the network thread

The menu of the mod goes from the selection of a mode over the selection of a
character and the address of a server to the download of its save. The scene loads
the downloaded save when the menu has come to its end. Four threads take part: the
game runs the frames of the menu and of the scene, the network thread moves the
connection and handles chunks, the keyboard calls back, and the save data thread
reads. They share no lock but the one of the connection, so what a thread does is
taken apart where another one can come in between: the parts of a frame, the two calls
behind an address, the parts of a handled chunk, of a reset and of the write of the
file, the test and the read of the save data. The nerves and steps of the game itself
are not in the repository: from one of its own nerves the game goes to any other one,
or where the hooks of the menu lead.
-/

namespace BfMultiplayer.TopMenuScene

open ByteBuffer Packets ServerHandlers SaveChunkRules ServerAddress

/-- The nerves of the game's own menu. -/
inductive GameNerve where
  /-- `SingleModeTitle`. -/
  | singleModeTitle
  /-- Another one. -/
  | other (id : ℕ)
  deriving DecidableEq

/-- The nerves of the menu. -/
inductive MenuNerve where
  /-- One of the game's own. -/
  | game (nerve : GameNerve)
  /-- `exeCharSelect`. -/
  | charSelect
  /-- `exeCharSelectBack`. -/
  | charSelectBack
  /-- `exeModeSelect`. -/
  | modeSelect
  /-- `exeModeSelectOut`. -/
  | modeSelectOut
  /-- `exeEnterIp`. -/
  | enterIp
  /-- `exeConnect`. -/
  | connect
  /-- `exeDownloadSave`. -/
  | downloadSave
  /-- `exeConnectEnd`. -/
  | connectEnd
  deriving DecidableEq

/-- Whether a nerve is one of the game's own. -/
def MenuNerve.isGame : MenuNerve → Bool
  | .game _ => true
  | _ => false

/-- Whether a nerve is one of those that use the connection. -/
def MenuNerve.usesClient : MenuNerve → Bool
  | .connect => true
  | .downloadSave => true
  | .connectEnd => true
  | _ => false

/-- The menu. -/
structure TopMenuExt where
  /-- The nerve. -/
  nerve : MenuNerve
  /-- Its step, -1 in a frame that has set a nerve. -/
  mStep : ℤ
  /-- `mNextNerveAfterCharSelect`. -/
  mNextNerveAfterCharSelect : Option MenuNerve
  /-- `mNerveBackCharSelect`. -/
  mNerveBackCharSelect : Option MenuNerve
  /-- `mNextNerveAfterModeSelect`. -/
  mNextNerveAfterModeSelect : Option MenuNerve
  deriving DecidableEq

/-- `al::setNerve`. -/
def TopMenuExt.setNerve (menu : TopMenuExt) (nerve : MenuNerve) : TopMenuExt :=
  { menu with nerve := nerve, mStep := -1 }

/-- `al::setNerve` of a nerve that may be null, which has no result. -/
def TopMenuExt.setNerve? (menu : TopMenuExt) (nerve : Option MenuNerve) : Option TopMenuExt :=
  nerve.map menu.setNerve

/-- What the frame of a menu sees of the player. -/
structure PadInput where
  /-- `al::isPadTriggerB`. -/
  isPadTriggerB : Bool
  /-- `isDecideAny` of the buttons that are shown. -/
  isDecideAny : Bool
  /-- The decided button is the one for a single player. -/
  isSinglePlayer : Bool

/-- `sCharSelectAndModeSelectAnimFrames`. -/
def sCharSelectAndModeSelectAnimFrames : ℤ := 15

/-- `exeCharSelect`. -/
def exeCharSelect (menu : TopMenuExt) (pad : PadInput) : Option TopMenuExt :=
  if pad.isPadTriggerB then some (menu.setNerve .charSelectBack)
  else if pad.isDecideAny then menu.setNerve? menu.mNextNerveAfterCharSelect
  else some menu

/-- `exeCharSelectBack`. -/
def exeCharSelectBack (menu : TopMenuExt) : Option TopMenuExt :=
  if menu.mStep = sCharSelectAndModeSelectAnimFrames then menu.setNerve? menu.mNerveBackCharSelect
  else some menu

/-- `exeModeSelect`. -/
def exeModeSelect (menu : TopMenuExt) (pad : PadInput) : TopMenuExt :=
  if pad.isDecideAny then
    let menu :=
      if pad.isSinglePlayer then
        { menu with
          mNextNerveAfterModeSelect := some (.game .singleModeTitle)
          mNerveBackCharSelect := some (.game .singleModeTitle) }
      else
        { menu with
          mNextNerveAfterCharSelect := some .enterIp
          mNextNerveAfterModeSelect := some .charSelect
          mNerveBackCharSelect := some .modeSelect }
    menu.setNerve .modeSelectOut
  else menu

/-- `exeModeSelectOut`. -/
def exeModeSelectOut (menu : TopMenuExt) : Option TopMenuExt :=
  if menu.mStep = sCharSelectAndModeSelectAnimFrames then
    menu.setNerve? menu.mNextNerveAfterModeSelect
  else some menu

/-- What the game's own menu does in one of its nerves, and the hooks it runs into. -/
inductive GameMenuStep where
  /-- It goes on to one of its nerves. -/
  | setNerve (nerve : GameNerve)
  /-- `Hooks::setModeSelectNerve`. -/
  | setModeSelectNerve
  /-- `Hooks::setCharSelectNerve`, also from an empty save, with the nerve the game sets. -/
  | setCharSelectNerve (nrv : GameNerve)
  /-- `Hooks::setCharSelectNerveReturnFromFileSelect`. -/
  | setCharSelectNerveReturnFromFileSelect
  /-- `Hooks::onSingleModeTitleLeave`, with the button that leaves. -/
  | onSingleModeTitleLeave

/-- A step of the game's own menu. -/
def gameMenuStep (menu : TopMenuExt) : GameMenuStep → TopMenuExt
  | .setNerve nerve => menu.setNerve (.game nerve)
  | .setModeSelectNerve => menu.setNerve .modeSelect
  | .setCharSelectNerve nrv =>
    { menu with mNextNerveAfterCharSelect := some (.game nrv) }.setNerve .charSelect
  | .setCharSelectNerveReturnFromFileSelect => menu.setNerve .charSelect
  | .onSingleModeTitleLeave => menu.setNerve .modeSelect

/-- The nerves of the scene. -/
inductive SceneNerve where
  /-- The game's `SingleModeTitle`. -/
  | singleModeTitle
  /-- Another nerve of the game's scene. -/
  | game (id : ℕ)
  /-- `exeLoadNetworkSave`, before its first frame has asked for the save or after it. -/
  | loadNetworkSave (isFirstStep : Bool)
  /-- The game's `TopMenuEnd`. -/
  | topMenuEnd
  deriving DecidableEq

/-- `SaveDataMode`. -/
inductive SaveDataMode where
  /-- The save of the console. -/
  | Local
  /-- The save of the server. -/
  | Server
  deriving DecidableEq

/-- The nerves of the network thread. -/
inductive ClientNerve where
  /-- `exeStall`. -/
  | stall
  /-- `NetClient::exeConnect`. -/
  | connect
  /-- `exeService`. -/
  | service
  deriving DecidableEq

/-- Where the game thread is in a frame of the menu, or in an appearing scene. -/
inductive FramePc where
  /-- Between frames. -/
  | idle
  /-- In front of `NetClient::disconnect`, in `exeConnect` or in the `download`. -/
  | disconnecting (download : Bool)
  /-- In `exeConnect`, behind the test of the B button. -/
  | connectCheck
  /-- In `resetSaveDataBuffer`, behind the buffer; `lost` behind a lost connection. -/
  | resetAck (lost : Bool)
  /-- Behind the flags. -/
  | resetSize (lost : Bool)
  /-- In `exeDownloadSave`, behind its first step. -/
  | downloadCheck
  /-- In the loop of `exeDownloadSave`, at a flag, with `isComplete` so far. -/
  | readAck (i : ℕ) (isComplete : Bool)
  /-- In front of `writeFileToPath`, with the size it was called with. -/
  | writing (size : ℕ)
  /-- In the hook of `appear`, behind the game's own part. -/
  | appearMode
  /-- Behind the mode. -/
  | appearDisconnect
  deriving DecidableEq

/-- Where the network thread is in `handle_SaveDataChunk`. -/
inductive ChunkPc where
  /-- In no chunk. -/
  | idle
  /-- In front of the copy. -/
  | copy (slot : Fin 8) (packet : SaveDataChunk)
  /-- In front of the flag. -/
  | acknowledge (slot : Fin 8)

/-- The network thread is in no chunk. -/
def ChunkPc.isIdle : ChunkPc → Bool
  | .idle => true
  | _ => false

/-- Where the keyboard is. -/
inductive KeyboardPc where
  /-- It is not shown. -/
  | hidden
  /-- It is shown. -/
  | shown
  /-- In `enterIpCallback`, behind `NetClient::connect`. -/
  | connecting
  deriving DecidableEq

/-- Where the save data sequence is. -/
inductive SaveDataSequence where
  /-- Nothing was asked for. -/
  | idle
  /-- A read was asked for. -/
  | requested
  /-- In the hook of the read, behind the test of the mode. -/
  | reading (mode : SaveDataMode)
  /-- A read is done. -/
  | done (mSaveBuffer : List UInt8)

/-- The menu, the scene, the static variables and the network thread. -/
structure MenuSystem where
  /-- The menu. -/
  menu : TopMenuExt
  /-- Where its frame is. -/
  pc : FramePc
  /-- The keyboard. -/
  keyboard : KeyboardPc
  /-- The scene. -/
  scene : SceneNerve
  /-- How often the game's own `exeSingleModeTitle` has run. -/
  titleFrames : ℕ
  /-- `getSaveDataMode()`. -/
  mode : SaveDataMode
  /-- The nerve of the network thread. -/
  net : ClientNerve
  /-- Where the network thread is in a chunk; it has the lock of the connection then. -/
  chunk : ChunkPc
  /-- The buffer, the flags and the size of the download. -/
  sync : SaveDataSync
  /-- The bytes of `GameDataRemote.bin`. -/
  remote : List UInt8
  /-- What the game's own read gives. -/
  gameData : List UInt8
  /-- The save data sequence. -/
  sequence : SaveDataSequence
  /-- What `readFromSaveDataBuffer` has read in `exeLoadNetworkSave`. -/
  loaded : Option (List UInt8)

/-- What can happen next. -/
inductive MenuAction where
  /-- A step of the game's own menu. -/
  | gameMenu (step : GameMenuStep)
  /-- A step of the game's own scene. -/
  | gameScene (next : SceneNerve)
  /-- `TopMenuScene::appear`, after which the game is at nerves of its own. -/
  | appear (menu : GameNerve) (scene : ℕ)
  /-- A frame of the menu, or its first part. -/
  | menuFrame (pad : PadInput)
  /-- The next part of the frame, or of an appearing scene. -/
  | menuResume
  /-- A frame of the scene, with the nerve its own `exeSingleModeTitle` sets. -/
  | sceneFrame (next : SceneNerve)
  /-- The keyboard calls back. -/
  | keyboardDone (closed : Bool) (str : EnteredText)
  /-- The next part of the call back. -/
  | keyboardResume
  /-- The next part of the hook of the read, with what a file that is too short leaves. -/
  | sequenceRead (left : List UInt8)
  /-- `exeConnect` of the network thread sees the connection. -/
  | connected
  /-- `exeService` sees its end. -/
  | disconnected
  /-- The network thread stalls. -/
  | stalled
  /-- `exeService` handles a chunk, or the first part of it. -/
  | handle (packet : SaveDataChunk)
  /-- The next part. -/
  | handleResume

/-- A nerve that the game's own scene can set. -/
def SceneNerve.isGame : SceneNerve → Bool
  | .loadNetworkSave _ => false
  | _ => true

/-- `NetClient::disconnect`, which waits for the lock of the connection. -/
def MenuSystem.disconnect (s : MenuSystem) : Option MenuSystem :=
  if s.chunk.isIdle then some { s with net := .stall } else none

/-- The end of a frame of the menu. -/
def MenuSystem.endFrame (s : MenuSystem) (menu : TopMenuExt) : MenuSystem :=
  { s with menu := { menu with mStep := menu.mStep + 1 }, pc := .idle }

/-- The first part of `resetSaveDataBuffer`. -/
def MenuSystem.resetBuffer (s : MenuSystem) (lost : Bool) : MenuSystem :=
  { s with
    sync := { s.sync with sCachedSaveFileWorkBuffer := Buffer.zero cachedSaveCapacity }
    pc := .resetAck lost }

/-- A frame of the menu, as far as it goes in one step. -/
def menuFrame (s : MenuSystem) (pad : PadInput) : Option MenuSystem :=
  let menu := { s.menu with mStep := max s.menu.mStep 0 }
  match menu.nerve with
  | .charSelect => (exeCharSelect menu pad).map s.endFrame
  | .charSelectBack => (exeCharSelectBack menu).map s.endFrame
  | .modeSelect => some (s.endFrame (exeModeSelect menu pad))
  | .modeSelectOut => (exeModeSelectOut menu).map s.endFrame
  | .enterIp =>
    some ({ s with keyboard := if menu.mStep = 0 then .shown else s.keyboard }.endFrame menu)
  | .connect =>
    if s.net ≠ .service ∧ pad.isPadTriggerB then
      some { s with menu := menu, pc := .disconnecting false }
    else some { s with menu := menu, pc := .connectCheck }
  | .downloadSave =>
    let s := { s with menu := menu, pc := .downloadCheck }
    if menu.mStep = 0 then some (s.resetBuffer false) else some s
  | .connectEnd => some (s.endFrame menu)
  | .game _ => none

/-- The next part of a frame of the menu. Behind a lost connection nothing handles chunks, so
that the reset there needs no step for its first part. -/
def menuResume (s : MenuSystem) : Option MenuSystem :=
  match s.pc with
  | .idle => none
  | .disconnecting download =>
    s.disconnect.map fun s =>
      let s := { s with menu := s.menu.setNerve .modeSelect }
      if download then s.resetBuffer true else { s with pc := .connectCheck }
  | .connectCheck =>
    if s.net = .service then
      some ({ s with mode := .Server }.endFrame (s.menu.setNerve .downloadSave))
    else some (s.endFrame s.menu)
  | .resetAck lost =>
    some { s with
      sync := { s.sync with sCachedSaveFileAck := fun _ => false }
      pc := .resetSize lost }
  | .resetSize lost =>
    some { s with
      sync := { s.sync with sCachedSaveFileSize := 0 }
      pc := if lost then .readAck 0 true else .downloadCheck }
  | .downloadCheck =>
    if s.net = .service then some { s with pc := .readAck 0 true }
    else some { s with pc := .disconnecting true }
  | .readAck i isComplete =>
    if h : i < 8 then
      some { s with pc := .readAck (i + 1) (isComplete && s.sync.sCachedSaveFileAck ⟨i, h⟩) }
    else if isComplete then some { s with pc := .writing s.sync.sCachedSaveFileSize }
    else some (s.endFrame s.menu)
  | .writing size =>
    some ({ s with remote := firstBytes s.sync.sCachedSaveFileWorkBuffer size }.endFrame
      (s.menu.setNerve .connectEnd))
  | .appearMode => some { s with mode := .Local, pc := .appearDisconnect }
  | .appearDisconnect => s.disconnect.map fun s => { s with pc := .idle }

/-- A frame of the scene: the hook of `SingleModeTitle`, or `exeLoadNetworkSave`. A save is not
asked for while another one is read. -/
def sceneFrame (s : MenuSystem) (next : SceneNerve) : Option MenuSystem :=
  match s.scene with
  | .singleModeTitle =>
    match s.mode with
    | .Local =>
      if next.isGame then some { s with titleFrames := s.titleFrames + 1, scene := next } else none
    | .Server =>
      if s.menu.nerve = .connectEnd then some { s with scene := .loadNetworkSave true } else some s
  | .loadNetworkSave true =>
    match s.sequence with
    | .requested => none
    | .reading _ => none
    | _ => some { s with sequence := .requested, scene := .loadNetworkSave false }
  | .loadNetworkSave false =>
    match s.sequence with
    | .done mSaveBuffer =>
      some { s with sequence := .idle, loaded := some mSaveBuffer, scene := .topMenuEnd }
    | _ => some s
  | _ => none

/-- `mSaveBufferSize` of the read that `exeLoadNetworkSave` asks for. -/
def mSaveBufferSize : ℕ := 0x10000

/-- `nn::fs::ReadFile` of `mSaveBufferSize` bytes; of a file that is too short it leaves
something else. -/
def readFile (file left : List UInt8) : List UInt8 :=
  if mSaveBufferSize ≤ file.length then file.take mSaveBufferSize else left

/-- The parts of the hook of the read. -/
def sequenceRead (s : MenuSystem) (left : List UInt8) : Option MenuSystem :=
  match s.sequence with
  | .requested => some { s with sequence := .reading s.mode }
  | .reading .Local => some { s with sequence := .done s.gameData }
  | .reading .Server => some { s with sequence := .done (readFile s.remote left) }
  | _ => none

/-- `enterIpCallback` of the menu, up to `NetClient::connect`. -/
def keyboardDone (s : MenuSystem) (closed : Bool) (str : EnteredText) : MenuSystem :=
  match enterIpCallback closed str with
  | .modeSelect => { s with keyboard := .hidden, menu := s.menu.setNerve .modeSelect }
  | .showEnterIpSwkbd _ => s
  | .connect _ _ => { s with keyboard := .connecting, net := .connect }

/-- The first part of `handle_SaveDataChunk`: the tests and the size. -/
def handleChunk (s : MenuSystem) (packet : SaveDataChunk) : MenuSystem :=
  match chunkSlot packet with
  | none => s
  | some slot =>
    if packet.size.toNat > sSaveDataChunkSize then s
    else
      let size :=
        if s.sync.sCachedSaveFileAck slot = false then
          s.sync.sCachedSaveFileSize + packet.size.toNat
        else s.sync.sCachedSaveFileSize
      { s with sync := { s.sync with sCachedSaveFileSize := size }, chunk := .copy slot packet }

/-- The next parts: the copy and the flag. -/
def handleResume (s : MenuSystem) : Option MenuSystem :=
  match s.chunk with
  | .idle => none
  | .copy slot packet =>
    (memcpy s.sync.sCachedSaveFileWorkBuffer (sSaveDataChunkSize * slot) packet.data 0
      packet.size.toNat).map fun buffer => { s with
        sync := { s.sync with sCachedSaveFileWorkBuffer := buffer }
        chunk := .acknowledge slot }
  | .acknowledge slot =>
    some { s with
      sync := { s.sync with
        sCachedSaveFileAck := Function.update s.sync.sCachedSaveFileAck slot true }
      chunk := .idle }

/-- The step function. Between the parts of a frame the game thread does nothing else, nor does
the network thread between the parts of a chunk. -/
def menuStep (s : MenuSystem) : MenuAction → Option MenuSystem
  | .gameMenu step =>
    if s.pc = .idle ∧ s.menu.nerve.isGame then some { s with menu := gameMenuStep s.menu step }
    else none
  | .gameScene next =>
    if s.pc = .idle ∧ s.scene.isGame ∧ s.scene ≠ .singleModeTitle ∧ next.isGame then
      some { s with scene := next }
    else none
  | .appear menu scene =>
    if s.pc = .idle ∧ s.keyboard = .hidden then
      some { s with
        menu := s.menu.setNerve (.game menu)
        scene := .game scene
        pc := .appearMode }
    else none
  | .menuFrame pad => if s.pc = .idle then menuFrame s pad else none
  | .menuResume => menuResume s
  | .sceneFrame next => if s.pc = .idle then sceneFrame s next else none
  | .keyboardDone closed str =>
    if s.keyboard = .shown then some (keyboardDone s closed str) else none
  | .keyboardResume =>
    if s.keyboard = .connecting then
      some { s with keyboard := .hidden, menu := s.menu.setNerve .connect }
    else none
  | .sequenceRead left => sequenceRead s left
  | .connected => if s.net = .connect ∧ s.chunk.isIdle then some { s with net := .service } else none
  | .disconnected =>
    if s.net = .service ∧ s.chunk.isIdle then some { s with net := .connect } else none
  | .stalled => if s.chunk.isIdle then some { s with net := .stall } else none
  | .handle packet =>
    if s.net = .service ∧ s.chunk.isIdle then some (handleChunk s packet) else none
  | .handleResume => handleResume s

/-- A menu at a nerve of the game, with what earlier sessions have left. -/
def MenuSystem.start (sync : SaveDataSync) (remote gameData : List UInt8) : MenuSystem where
  menu := ⟨.game (.other 0), 0, none, none, none⟩
  pc := .idle
  keyboard := .hidden
  scene := .game 0
  titleFrames := 0
  mode := .Local
  net := .stall
  chunk := .idle
  sync := sync
  remote := remote
  gameData := gameData
  sequence := .idle
  loaded := none

end BfMultiplayer.TopMenuScene

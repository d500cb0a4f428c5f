import BfMultiplayer.BackgroundTasks
import BfMultiplayer.SaveFile
import BfMultiplayer.SavePasses

/-!
# What the server sends to a client that greets

An upload thread holds `mSaveDataMutex` over its eight chunks, and a commit of
an uploaded save takes it too, so the two never overlap. The console resets the
shared save without the mutex. A run of the thread that no reset changes, where
it has already sent, is a snapshot of one shared save, provided that the size
of its last chunk is the rest of the save.
-/

namespace BfMultiplayer.DownloadSnapshot

open ByteBuffer Packets ServerState ServerHandlers SaveChunkRules EventLoopRules GuardedRuns
  SaveFile SavePasses BackgroundTasks

/-- The shared save as an upload thread reads it. -/
def sharedSaveOf (data : ServerSaveData) : SaveValue sharedSaveCapacity :=
  ⟨data.sharedSave, data.sharedSaveSize⟩

/-- The server with its upload threads. -/
structure DownloadSystem where
  /-- The server. -/
  server : Server
  /-- How many upload threads wait for the mutex. -/
  waiting : ℕ
  /-- Whether an upload thread holds `mSaveDataMutex`. -/
  saveDataMutex : Bool
  /-- The pass of the thread that holds it, until its last chunk, and those of
  the threads that have sent all chunks. -/
  loop : UploadLoop sharedSaveCapacity

/-- What can happen next. -/
inductive DownloadAction where
  /-- The event loop handles a chunk of an upload. -/
  | chunk (client : ℕ) (packet : SaveDataChunk)
  /-- The console command, with the files it finds. -/
  | resetsave (files : SaveFiles)
  /-- A greeting starts an upload thread. -/
  | greet
  /-- An upload thread takes the mutex. -/
  | lock
  /-- The thread that holds the mutex sends its next chunk. -/
  | send
  /-- It gives the mutex back. -/
  | unlock

/-- The server changes, while a thread sends or not. -/
def DownloadSystem.put (sys : DownloadSystem) (s : Server) : DownloadSystem :=
  { sys with server := s, loop := sys.loop.observe (sharedSaveOf s.mSaveData) }

/-- One step of the event loop, the console or an upload thread. The commit of
an upload waits for the mutex; `resetsave` does not, and the `save` after its
reset only writes files that nothing here reads. -/
def downloadStep (sys : DownloadSystem) : DownloadAction → Option DownloadSystem
  | .chunk client packet => (handleSaveChunk sys.server client packet).bind fun result =>
    if takesMutex (.saveDataChunk packet) result.2 && sys.saveDataMutex then none
    else some (sys.put result.1)
  | .resetsave files =>
    match reset files sys.server.mSaveData with
    | .ok data => some (sys.put { sys.server with mSaveData := data })
    | .error _ => none
  | .greet => some { sys with waiting := sys.waiting + 1 }
  | .lock =>
    if 0 < sys.waiting ∧ sys.saveDataMutex = false then
      some { sys with
        waiting := sys.waiting - 1
        saveDataMutex := true
        loop := sys.loop.enter (sharedSaveOf sys.server.mSaveData) }
    else none
  | .send => (sys.loop.send (sharedSaveOf sys.server.mSaveData)).map fun loop =>
    { sys with loop := loop }
  | .unlock =>
    if sys.saveDataMutex = true ∧ sys.loop.pass.isNone = true then
      some { sys with saveDataMutex := false }
    else none

/-- A server whose clients have all been served. -/
def DownloadSystem.start (s : Server) : DownloadSystem := ⟨s, 0, false, .waiting⟩

/-- The condition on a step: a reset does not change a byte that the sending
thread has sent, and the size of a last chunk is the rest of the save. -/
def KeepsDownload (sys : DownloadSystem) : DownloadAction → Prop
  | .resetsave files => ∀ bytes ∈ files.gameDataDefault,
    sys.loop.KeepsSent sys.server.mSaveData.sharedSave (ofBytes bytes) 0 bytes.length
  | .send => sys.loop.EndsExact sys.server.mSaveData.sharedSaveSize
  | _ => True

instance (sys : DownloadSystem) : ∀ action, Decidable (KeepsDownload sys action)
  | .resetsave files => inferInstanceAs (Decidable (∀ bytes ∈ files.gameDataDefault, _))
  | .send => inferInstanceAs (Decidable (sys.loop.EndsExact _))
  | .chunk _ _ => inferInstanceAs (Decidable True)
  | .greet => inferInstanceAs (Decidable True)
  | .lock => inferInstanceAs (Decidable True)
  | .unlock => inferInstanceAs (Decidable True)

/-- The loop is sound, and its pass has the mutex. -/
structure DownloadInv (sys : DownloadSystem) : Prop where
  /-- The loop. -/
  sound : sys.loop.Sound (sharedSaveOf sys.server.mSaveData)
  /-- The mutex of its pass. -/
  locked : ∀ pass ∈ sys.loop.pass, sys.saveDataMutex = true

/-- A chunk that is not the commit of an upload leaves the stored progress. -/
theorem saveData_of_not_takesMutex {s t : Server} {client : ℕ} {packet : SaveDataChunk}
    {effects : List Effect} (h : handleSaveChunk s client packet = some (t, effects))
    (hfree : takesMutex (.saveDataChunk packet) effects = false) : t.mSaveData = s.mSaveData := by
  cases handleSaveChunk_step h with
  | rejected _ => exact openSession_saveData s client
  | stored _ hstored _ => exact hstored.saveData.trans (openSession_saveData s client)
  | committed _ _ _ _ => cases hfree

/-- What a reset does to the shared save. -/
theorem reset_copies {files : SaveFiles} {data after : ServerSaveData}
    (h : reset files data = .ok after) : ∃ bytes, files.gameDataDefault = some bytes ∧
      after.sharedSaveSize = bytes.length ∧
      memcpy data.sharedSave 0 (ofBytes bytes) 0 bytes.length = some after.sharedSave := by
  unfold reset loadSharedDefault loadShared at h
  split at h
  · cases h
  · rename_i bytes hbytes
    split at h
    · cases h
    · rename_i shared hcopy
      cases h
      exact ⟨bytes, hbytes, rfl, hcopy⟩

/-- A change of the server that keeps what was sent keeps the invariant. -/
theorem DownloadInv.put {sys : DownloadSystem} {s : Server} (h : DownloadInv sys)
    (hkeep : ∀ pass ∈ sys.loop.pass, ∀ j < sSaveDataChunkSize * pass.sent.length,
      byteAt s.mSaveData.sharedSave j = byteAt sys.server.mSaveData.sharedSave j) :
    DownloadInv (sys.put s) := by
  refine ⟨h.sound.observe hkeep, fun pass hpass => ?_⟩
  obtain ⟨before, hbefore, -⟩ := Option.map_eq_some_iff.mp hpass
  exact h.locked before hbefore

/-- A step under the condition keeps the invariant. -/
theorem downloadInv_step {sys next : DownloadSystem} {action : DownloadAction}
    (h : DownloadInv sys) (hguard : KeepsDownload sys action)
    (hstep : downloadStep sys action = some next) : DownloadInv next := by
  cases action with
  | chunk client packet =>
    obtain ⟨⟨s, effects⟩, hhandle, hstep⟩ := Option.bind_eq_some_iff.mp hstep
    split at hstep
    · cases hstep
    · rename_i hfree
      cases hstep
      refine h.put fun pass hpass j _ => ?_
      -- the sending thread has the mutex, so this chunk commits nothing
      rw [h.locked pass hpass, Bool.and_true, Bool.not_eq_true] at hfree
      rw [saveData_of_not_takesMutex hhandle hfree]
  | resetsave files =>
    simp only [downloadStep] at hstep
    split at hstep
    · rename_i data hreset
      cases hstep
      obtain ⟨bytes, hbytes, -, hcopy⟩ := reset_copies hreset
      exact h.put fun pass hpass => byteAt_of_keepsSent hcopy (hguard bytes hbytes pass hpass)
    · cases hstep
  | greet =>
    cases hstep
    exact ⟨h.sound, h.locked⟩
  | lock =>
    simp only [downloadStep] at hstep
    split at hstep
    · cases hstep
      exact ⟨h.sound.enter, fun _ _ => rfl⟩
    · cases hstep
  | send =>
    obtain ⟨loop, hsend, rfl⟩ := Option.map_eq_some_iff.mp hstep
    refine ⟨h.sound.send hguard hsend, fun _ _ => ?_⟩
    obtain ⟨pass, hpass, -⟩ := Option.bind_eq_some_iff.mp hsend
    exact h.locked pass hpass
  | unlock =>
    simp only [downloadStep] at hstep
    split at hstep
    · rename_i hidle
      cases hstep
      refine ⟨h.sound, fun pass hpass => ?_⟩
      rw [Option.isNone_iff_eq_none.mp hidle.2] at hpass
      exact absurd hpass (Option.not_mem_none _)
    · cases hstep

/-- In every run in which no reset changes a byte that the sending thread has
sent, and the size of each last chunk is the rest of the save, each upload
thread sends the slices of one shared save that was current meanwhile. -/
theorem download_is_snapshot (s : Server) (actions : List DownloadAction) (sys : DownloadSystem)
    (hguard : Along KeepsDownload downloadStep (.start s) actions)
    (hrun : run downloadStep (.start s) actions = some sys) :
    ∀ pass ∈ sys.loop.ended, pass.Snapshot := by
  have hstart : DownloadInv (.start s) :=
    ⟨UploadLoop.sound_waiting _, fun _ h => absurd h (Option.not_mem_none _)⟩
  exact (run_invariant (fun _ _ _ => downloadInv_step) hstart hguard hrun).sound.ended

/-- A server whose shared save is one zero byte more than seven full chunks. -/
def zeroServer : Server :=
  Server.fresh { ServerSaveData.fresh (Buffer.zero sharedSaveCapacity) with
    sharedSaveSize := 59137 }

/-- A thread sends the save while another one waits and a chunk of an upload
arrives. -/
theorem download_is_snapshot_one :
    ∃ sys, run downloadStep (.start zeroServer)
        [.greet, .lock, .send, .chunk 1 (fullChunk 0), .greet, .send, .send, .send, .send, .send,
          .send, .send, .unlock, .lock] = some sys ∧
      sys.loop.ended.length = 1 ∧ ∀ pass ∈ sys.loop.ended, pass.Snapshot := by
  have hrun : ∃ sys, run downloadStep (.start zeroServer)
      [.greet, .lock, .send, .chunk 1 (fullChunk 0), .greet, .send, .send, .send, .send, .send,
        .send, .send, .unlock, .lock] = some sys ∧ sys.loop.ended.length = 1 :=
    run_reaches (by decide)
  obtain ⟨sys, hsys, hone⟩ := hrun
  exact ⟨sys, hsys, hone, download_is_snapshot zeroServer _ sys (by decide) hsys⟩

/-- Files with a default save of the same size, all ones. -/
def onesDefault : SaveFiles := ⟨none, none, some (List.replicate 59137 1)⟩

/-- A reset to that default. -/
theorem reset_onesDefault (data : ServerSaveData) : ∃ after,
    reset onesDefault data = .ok after ∧ after.sharedSaveSize = 59137 ∧
      ∀ j < 59137, byteAt after.sharedSave j = some 1 := by
  have hlength : (List.replicate 59137 (1 : UInt8)).length = 59137 := List.length_replicate
  have hfits : (List.replicate 59137 (1 : UInt8)).length ≤ sharedSaveCapacity := by
    rw [hlength]
    decide
  obtain ⟨shared, hbytes, hload⟩ := loadShared_some hfits { data with
    jumpFlipState := false
    numCollectedGoalItems := 0
    collectedGoalItems := []
    islandToScenarioMap := ∅
    unlockedToads := []
    collectedShards := [] }
  refine ⟨_, hload, hlength, fun j hj => ?_⟩
  rw [hlength] at hbytes
  have hbyte := getElem?_firstBytes (n := 59137) shared (by decide) hj
  rw [hbytes, List.getElem?_replicate, if_pos hj] at hbyte
  exact hbyte.symm

/-- The last chunk of a save of ones of that size. -/
theorem last_chunk_of_ones {data : ServerSaveData} (hsize : data.sharedSaveSize = 59137)
    (hones : ∀ j < 59137, byteAt data.sharedSave j = some 1) :
    ∃ chunk, chunkPart (sharedSaveOf data) 7 = some chunk ∧ chunk.size = 1 ∧
      byteAt chunk.data 0 = some 1 := by
  have hsome : (uploadChunk data.sharedSave data.sharedSaveSize 7).isSome := by
    rw [uploadChunk_isSome_iff, hsize]
    decide
  obtain ⟨chunk, hchunk⟩ := Option.isSome_iff_exists.mp hsome
  obtain ⟨-, hfield, -, hbytes⟩ := uploadChunk_spec hchunk
  rw [hsize] at hfield
  have hone : chunk.size = 1 := hfield
  have hbyte := hbytes 0 (by rw [hone]; decide)
  exact ⟨chunk, hchunk, hone, hbyte.trans (hones 59136 (by decide))⟩

/-- The console resets the save before the last chunk of a download: seven
chunks of the old save are sent and the last one of the default. -/
theorem reset_tears_download :
    ∃ sys, run downloadStep (.start zeroServer)
        ([.greet, .lock, .send, .send, .send, .send, .send, .send, .send] ++
          [.resetsave onesDefault, .send]) = some sys ∧
      ∃ pass ∈ sys.loop.ended, ¬pass.Snapshot := by
  have hfirst : ∃ sys, run downloadStep (.start zeroServer)
      [.greet, .lock, .send, .send, .send, .send, .send, .send, .send] = some sys ∧
      ∃ pass ∈ sys.loop.pass, pass.sent.length = 7 ∧
        (∀ value ∈ pass.held, value.size = 59137 ∧ byteAt value.bytes 59136 = some 0) ∧
        ∃ chunk ∈ pass.sent[0]?, chunk.size = 0x2100 ∧ byteAt chunk.data 0 = some 0 :=
    run_reaches (by decide)
  obtain ⟨mid, hmid, pass, hpass, hseven, hheld, first, hfirst, hfirstSize, hfirstByte⟩ := hfirst
  obtain ⟨data, hreset, hsize, hones⟩ := reset_onesDefault mid.server.mSaveData
  obtain ⟨last, hlast, hlastSize, hlastByte⟩ := last_chunk_of_ones hsize hones
  have hobserved : (mid.loop.observe (sharedSaveOf data)).pass =
      some (pass.observe (sharedSaveOf data)) := by
    rw [UploadLoop.observe, hpass, Option.map_some]
  have hsend := UploadLoop.send_last hobserved hseven hlast
  have hend : ∃ sys, run downloadStep mid [.resetsave onesDefault, .send] = some sys ∧
      ⟨pass.sent ++ [last], pass.held ++ [sharedSaveOf data]⟩ ∈ sys.loop.ended := by
    rw [run_cons, downloadStep, hreset, Option.bind_some, run_cons, downloadStep]
    simp only [DownloadSystem.put, hsend, Option.map_some, Option.bind_some, run_nil]
    exact ⟨_, rfl, List.mem_append_right _ (List.mem_singleton_self _)⟩
  obtain ⟨sys, hsys, hended⟩ := hend
  refine ⟨sys, by rw [run_append, hmid, Option.bind_some, hsys], _, hended, ?_⟩
  apply Pass.not_snapshot_of_torn
  intro value hvalue
  have hseventh : (pass.sent ++ [last])[7]? = some last := by
    rw [← hseven, List.getElem?_concat_length]
  have hzeroth : (pass.sent ++ [last])[0]? = some first := by
    rw [List.getElem?_append_left (by omega), hfirst]
  rcases List.mem_append.mp hvalue with hold | hnew
  · -- the save as it was lacks the last chunk
    obtain ⟨hvalueSize, hvalueByte⟩ := hheld value hold
    refine ⟨by rw [hvalueSize]; decide, 7, by decide, last, hseventh, ?_⟩
    rw [hlastSize, hvalueSize, hlastByte]
    refine ⟨by decide, by decide, by decide, ?_⟩
    intro he
    rw [show sSaveDataChunkSize * 7 = 59136 from rfl, hvalueByte] at he
    cases he
  · -- the default lacks the first one
    have hvalueSize : (sharedSaveOf data).size = 59137 := hsize
    rw [List.mem_singleton.mp hnew]
    refine ⟨by rw [hvalueSize]; decide, 0, by decide, first, hzeroth, ?_⟩
    rw [hfirstSize, hvalueSize, hfirstByte]
    refine ⟨by decide, by decide, by decide, ?_⟩
    intro he
    have hone := hones 0 (by decide)
    rw [sharedSaveOf, Nat.mul_zero, hone] at he
    cases he

end BfMultiplayer.DownloadSnapshot
